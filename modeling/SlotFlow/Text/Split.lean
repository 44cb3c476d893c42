/-!
# Cutting texts

Main definitions:

* `splitLast?`: the parts before and after the last occurrence of a character;
* `lines`: the lines of a text, without their line ends.

Main statements:

* `splitLast?_append`: the cut is at the last occurrence;
* `lines_cons`: a line that is ended by a line feed is the first of the text.
-/

namespace SlotFlow
namespace Text

/-- The parts before and after the last occurrence of a character. -/
def splitLast?
    (c : Char)
    (cs : List Char) :
    Option (List Char × List Char) :=
  let after := (cs.reverse.takeWhile (· ≠ c)).reverse
  match cs.reverse.dropWhile (· ≠ c) with
  | [] => none
  | _ :: before => some (before.reverse, after)

/-- Drops a carriage return at the end. -/
def dropReturn
    (line : List Char) :
    List Char :=
  if line.getLast? = some '\r' then line.dropLast else line

/--
The lines of a text. A line feed ends a line, together with a carriage return right
before it; what follows the last line feed is a line if it is not empty.
-/
def lines
    (cs : List Char) :
    List (List Char) :=
  match cs with
  | [] => []
  | c :: rest =>
      let line := (c :: rest).takeWhile (· ≠ '\n')
      match _h : (c :: rest).dropWhile (· ≠ '\n') with
      | [] => [line]
      | _ :: more => dropReturn line :: lines more
termination_by cs.length
decreasing_by
  have hlen := (List.dropWhile_suffix (l := c :: rest) (· ≠ '\n')).length_le
  rw [_h] at hlen
  simp only [List.length_cons] at hlen ⊢
  omega

/-- The cut is at the last occurrence. -/
theorem splitLast?_append
    {c : Char}
    {before after : List Char}
    (h : c ∉ after) :
    splitLast? c (before ++ c :: after) = some (before, after) := by
  have hall : ∀ d ∈ after.reverse, decide (d ≠ c) = true := by
    intro d hd
    have hmem := List.mem_reverse.1 hd
    simp only [decide_eq_true_eq]
    rintro rfl
    exact h hmem
  simp only [splitLast?, List.reverse_append, List.reverse_cons, List.append_assoc,
    List.cons_append, List.nil_append]
  rw [List.takeWhile_append_of_pos hall, List.dropWhile_append_of_pos hall]
  simp

/-- A line that is ended by a line feed is the first of the text. -/
theorem lines_cons
    {line : List Char}
    (h : '\n' ∉ line)
    (rest : List Char) :
    lines (line ++ '\n' :: rest) = dropReturn line :: lines rest := by
  have hall : ∀ d ∈ line, decide (d ≠ '\n') = true := by
    intro d hd
    simp only [decide_eq_true_eq]
    rintro rfl
    exact h hd
  have htake : (line ++ '\n' :: rest).takeWhile (· ≠ '\n') = line := by
    rw [List.takeWhile_append_of_pos hall]
    simp
  have hdrop : (line ++ '\n' :: rest).dropWhile (· ≠ '\n') = '\n' :: rest := by
    rw [List.dropWhile_append_of_pos hall]
    simp
  rw [lines.eq_def]
  split
  · rename_i heq
    simp at heq
  · rename_i c tail heq
    simp only
    rw [← heq, htake]
    split
    · rename_i hnil
      rw [hdrop] at hnil
      simp at hnil
    · rename_i hcons
      rw [hdrop] at hcons
      cases hcons
      rfl

end Text
end SlotFlow
