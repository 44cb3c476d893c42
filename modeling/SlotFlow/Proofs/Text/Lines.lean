import Mathlib.Data.List.Infix
import Mathlib.Data.List.TakeWhile
import SlotFlow.Text.Split

/-!
# Lines of a text

Main definitions:

* `Lined`: a text, taken apart at its line feeds;
* `WholeLines`: texts that end with a line feed, if with anything.

Main statements:

* `lined`: every text can be taken apart;
* `lines_append`: the lines of whole lines and of what follows them;
* `noFeed_of_mem_lines`: no line holds a line feed.
-/

namespace SlotFlow
namespace Text

/-- A text taken apart: lines that are ended by a line feed, then one that is not. -/
inductive Lined : List Char → Prop
  | last
      {line : List Char}
      (noFeed : '\n' ∉ line) :
      Lined line
  | line
      {line rest : List Char}
      (noFeed : '\n' ∉ line)
      (later : Lined rest) :
      Lined (line ++ '\n' :: rest)

/-- Every text can be taken apart at its line feeds. -/
theorem lined
    (cs : List Char) :
    Lined cs := by
  induction cs with
  | nil =>
      exact .last (by simp)
  | cons c cs ih =>
      by_cases hc : c = '\n'
      · subst hc
        exact .line List.not_mem_nil ih
      · cases ih with
        | last noFeed =>
            exact .last (by simp [noFeed, Ne.symm hc])
        | @line line rest noFeed hrest =>
            have hfirst : '\n' ∉ c :: line := by
              simp [noFeed, Ne.symm hc]
            exact .line hfirst hrest

theorem lines_nil :
    lines [] = [] := by
  rw [lines.eq_def]

/-- A text without line feeds is one line, unless it is empty. -/
theorem lines_of_noFeed
    {line : List Char}
    (h : '\n' ∉ line) :
    lines line = if line = [] then [] else [line] := by
  cases line with
  | nil =>
      exact lines_nil
  | cons c cs =>
      have hall : ∀ d ∈ c :: cs, decide (d ≠ '\n') = true := by
        intro d hd
        simp only [decide_eq_true_eq]
        rintro rfl
        exact h hd
      have htake : (c :: cs).takeWhile (· ≠ '\n') = c :: cs :=
        List.takeWhile_eq_self_iff.2 hall
      have hdrop : (c :: cs).dropWhile (· ≠ '\n') = [] :=
        List.dropWhile_eq_nil_iff.2 hall
      rw [lines.eq_def]
      simp only [htake]
      split
      · rfl
      · rename_i hcons
        rw [hdrop] at hcons
        cases hcons

theorem noFeed_dropReturn
    {line : List Char}
    (h : '\n' ∉ line) :
    '\n' ∉ dropReturn line := by
  unfold dropReturn
  split
  · exact fun hmem => h (List.mem_of_mem_dropLast hmem)
  · exact h

/-- No line holds a line feed. -/
theorem noFeed_of_mem_lines
    {cs line : List Char}
    (h : line ∈ lines cs) :
    '\n' ∉ line := by
  induction lined cs with
  | last noFeed =>
      rw [lines_of_noFeed noFeed] at h
      split at h
      · cases h
      · rw [List.mem_singleton.1 h]
        exact noFeed
  | line noFeed _ ih =>
      rw [lines_cons noFeed] at h
      rcases List.mem_cons.1 h with rfl | h
      · exact noFeed_dropReturn noFeed
      · exact ih h

/-- A text after which a line starts. -/
def WholeLines
    (cs : List Char) :
    Prop :=
  ∀ c ∈ cs.getLast?, c = '\n'

instance : DecidablePred WholeLines :=
  fun cs => @Option.decidableForallMem Char (· = '\n') _ cs.getLast?

theorem wholeLines_nil :
    WholeLines [] := by
  simp [WholeLines]

/-- Without line feeds there is nothing in a text of whole lines. -/
theorem WholeLines.eq_nil
    {line : List Char}
    (h : WholeLines line)
    (hfeed : '\n' ∉ line) :
    line = [] := by
  cases hlast : line.getLast? with
  | none =>
      exact List.getLast?_eq_none_iff.1 hlast
  | some c =>
      have hc : c = '\n' := h c hlast
      subst hc
      exact absurd (List.mem_of_getLast? hlast) hfeed

/-- What follows the first line of whole lines is whole lines. -/
theorem wholeLines_line_iff
    {line rest : List Char} :
    WholeLines (line ++ '\n' :: rest) ↔ WholeLines rest := by
  cases hlast : rest.getLast? with
  | none =>
      simp [WholeLines, List.getLast?_append, List.getLast?_cons, hlast]
  | some c =>
      simp [WholeLines, List.getLast?_append, List.getLast?_cons, hlast]

/-- The lines of whole lines come before those of what follows. -/
theorem lines_append
    {cs : List Char}
    (h : WholeLines cs)
    (rest : List Char) :
    lines (cs ++ rest) = lines cs ++ lines rest := by
  induction lined cs with
  | last noFeed =>
      rw [h.eq_nil noFeed, lines_nil]
      rfl
  | @line line more noFeed _ ih =>
      rw [List.append_assoc, List.cons_append, lines_cons noFeed, lines_cons noFeed,
        ih (wholeLines_line_iff.1 h)]
      rfl

end Text
end SlotFlow
