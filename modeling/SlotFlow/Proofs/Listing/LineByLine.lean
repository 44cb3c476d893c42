import Mathlib.Data.List.Forall2
import SlotFlow.Proofs.Text.Lines
import SlotFlow.Listing.Parse

/-!
# Reading line by line

No line of a listing has a part in how another one is read. A listing is read if each of its
lines is read on its own, as the records of its lines in a row; else it is refused for the
first line that is refused on its own, and for the same cause.

Main definition:

* `Refusal.below`: a refusal in a text that comes after other lines.

Main statements:

* `parse_line`: one line on its own;
* `parseLines_eq_ok_iff`, `parseLines_eq_error_iff`: rows of lines that are read or refused;
* `parseLines_append`: one row of lines after another;
* `parse_by_lines`: whole listings.
-/

namespace SlotFlow
namespace Listing

variable {n : Nat} {line : List Char} {lines others : List (List Char)} {rs : List Record}
  {refusal : Refusal}

/-- The refusal of a line that has `count` more lines above it. -/
def Refusal.below
    (refusal : Refusal)
    (count : Nat) :
    Refusal :=
  { refusal with line := refusal.line + count }

/-- One line on its own is read or refused as the line of a listing is. -/
theorem parse_line
    (h : '\n' ∉ line) :
    parse (String.ofList line) = (parseLine line).mapError (Refusal.mk 1) := by
  rw [parse, String.toList_ofList, Text.lines_of_noFeed h]
  split
  · rename_i hempty
    subst hempty
    have hread : parseLine [] = .ok [] := by
      rw [parseLine, tokenize]
      rfl
    rw [hread]
    rfl
  · cases hread : parseLine line with
    | error complaint =>
        rw [parseLines_cons_error hread]
        rfl
    | ok rs =>
        rw [parseLines_cons_ok hread]
        simp [parseLines, Except.map, Except.mapError]

theorem parse_line_eq_ok_iff
    (h : '\n' ∉ line) :
    parse (String.ofList line) = .ok rs ↔ parseLine line = .ok rs := by
  rw [parse_line h]
  cases parseLine line <;> simp [Except.mapError]

theorem parse_line_eq_error_iff
    {complaint : Complaint}
    (h : '\n' ∉ line) :
    parse (String.ofList line) = .error ⟨1, complaint⟩ ↔ parseLine line = .error complaint := by
  rw [parse_line h]
  cases parseLine line <;> simp [Except.mapError]

/-- The lines of a row are read on their own as they are read in the row. -/
theorem forall₂_parse_iff
    {parts : List (List Record)}
    (h : ∀ line ∈ lines, '\n' ∉ line) :
    List.Forall₂ (fun line part => parse (String.ofList line) = .ok part) lines parts ↔
      List.Forall₂ (fun line part => parseLine line = .ok part) lines parts := by
  induction lines generalizing parts with
  | nil =>
      simp
  | cons line lines ih =>
      obtain ⟨hline, hlines⟩ := List.forall_mem_cons.1 h
      cases parts with
      | nil =>
          simp
      | cons part parts =>
          simp [parse_line_eq_ok_iff hline, ih hlines]

/-- A row of lines is read if each line is, as the records of the lines in a row. -/
theorem parseLines_eq_ok_iff :
    parseLines n lines = .ok rs ↔
      ∃ parts, List.Forall₂ (fun line part => parseLine line = .ok part) lines parts ∧
        rs = parts.flatten := by
  induction lines generalizing n rs with
  | nil =>
      simp [parseLines, eq_comm]
  | cons line lines ih =>
      constructor
      · intro h
        cases hread : parseLine line with
        | error complaint =>
            rw [parseLines_cons_error hread] at h
            cases h
        | ok part =>
            rw [parseLines_cons_ok hread] at h
            obtain ⟨later, hlater, rfl⟩ := exists_of_map_eq_ok h
            obtain ⟨parts, hparts, rfl⟩ := ih.1 hlater
            exact ⟨part :: parts, .cons hread hparts, rfl⟩
      · rintro ⟨parts, hparts, rfl⟩
        cases hparts with
        | cons hread hlater =>
            rw [parseLines_cons_ok hread, ih.2 ⟨_, hlater, rfl⟩]
            rfl

/-- A row of lines is refused for its first line that is refused. -/
theorem parseLines_eq_error_iff :
    parseLines n lines = .error refusal ↔
      ∃ before line after, lines = before ++ line :: after ∧
        refusal.line = n + before.length ∧
        (∀ earlier ∈ before, ∃ part, parseLine earlier = .ok part) ∧
        parseLine line = .error refusal.complaint := by
  induction lines generalizing n with
  | nil =>
      simp [parseLines]
  | cons first lines ih =>
      cases hread : parseLine first with
      | error complaint =>
          rw [parseLines_cons_error hread]
          constructor
          · intro h
            cases h
            exact ⟨[], first, lines, rfl, rfl, by simp, hread⟩
          · rintro ⟨before, line, after, hlines, hnumber, hbefore, hline⟩
            cases before with
            | nil =>
                cases hlines
                rw [hread] at hline
                cases hline
                cases refusal
                simp_all
            | cons earlier before =>
                cases hlines
                obtain ⟨part, hpart⟩ := hbefore first (by simp)
                rw [hread] at hpart
                cases hpart
      | ok part =>
          have hmap :
              parseLines n (first :: lines) = .error refusal ↔
                parseLines (n + 1) lines = .error refusal := by
            rw [parseLines_cons_ok hread]
            cases parseLines (n + 1) lines <;> simp [Except.map]
          rw [hmap, ih]
          constructor
          · rintro ⟨before, line, after, rfl, hnumber, hbefore, hline⟩
            refine ⟨first :: before, line, after, rfl, ?_, ?_, hline⟩
            · simp only [List.length_cons]
              omega
            · exact List.forall_mem_cons.2 ⟨⟨part, hread⟩, hbefore⟩
          · rintro ⟨before, line, after, hlines, hnumber, hbefore, hline⟩
            cases before with
            | nil =>
                cases hlines
                rw [hread] at hline
                cases hline
            | cons earlier before =>
                cases hlines
                refine ⟨before, line, after, rfl, ?_, (List.forall_mem_cons.1 hbefore).2, hline⟩
                simp only [List.length_cons] at hnumber
                omega

/-- Lines that come after others are named by greater numbers. -/
theorem parseLines_add
    (n count : Nat)
    (lines : List (List Char)) :
    parseLines (n + count) lines = (parseLines n lines).mapError (·.below count) := by
  induction lines generalizing n with
  | nil =>
      rfl
  | cons line lines ih =>
      cases hread : parseLine line with
      | error complaint =>
          rw [parseLines_cons_error hread, parseLines_cons_error hread]
          rfl
      | ok rs =>
          have hnext : n + count + 1 = n + 1 + count := by
            omega
          rw [parseLines_cons_ok hread, parseLines_cons_ok hread, hnext, ih]
          cases parseLines (n + 1) lines <;> rfl

/-- Of two rows of lines the first is read first. -/
theorem parseLines_append :
    parseLines n (lines ++ others) =
      match parseLines n lines with
      | .error refusal => .error refusal
      | .ok rs => (parseLines (n + lines.length) others).map (rs ++ ·) := by
  induction lines generalizing n with
  | nil =>
      simp only [List.nil_append, parseLines, List.length_nil, Nat.add_zero]
      cases parseLines n others <;> rfl
  | cons line lines ih =>
      rw [List.cons_append]
      cases hread : parseLine line with
      | error complaint =>
          rw [parseLines_cons_error hread, parseLines_cons_error hread]
      | ok first =>
          have hnext : n + 1 + lines.length = n + (line :: lines).length := by
            simp only [List.length_cons]
            omega
          rw [parseLines_cons_ok hread, parseLines_cons_ok hread, ih, hnext]
          cases parseLines (n + 1) lines with
          | error refusal =>
              rfl
          | ok rs =>
              cases parseLines (n + (line :: lines).length) others with
              | error refusal =>
                  rfl
              | ok later =>
                  simp [Except.map]

/-- A listing that follows whole lines. -/
theorem parse_append
    {first : String}
    (h : Text.WholeLines first.toList)
    (rest : String) :
    parse (first ++ rest) =
      match parse first with
      | .error refusal => .error refusal
      | .ok rs =>
          match parse rest with
          | .error refusal => .error (refusal.below (Text.lines first.toList).length)
          | .ok others => .ok (rs ++ others) := by
  rw [parse, String.toList_append, Text.lines_append h, parseLines_append, parseLines_add]
  change (match parse first with
    | .error refusal => _
    | .ok rs => ((parse rest).mapError _).map _) = _
  cases parse first with
  | error refusal =>
      rfl
  | ok rs =>
      cases parse rest <;> rfl

/--
A listing is read exactly if each of its lines is read on its own, and then as the records of
its lines in a row. It is refused exactly for a line that is refused on its own, for the same
cause, where all lines before it are read on their own; the refusal names that line. So of a
text after whole lines the records come after theirs, and its lines are counted after them.
-/
theorem parse_by_lines :
    (∀ source records,
      parse source = .ok records ↔
        ∃ parts,
          List.Forall₂ (fun line part => parse (String.ofList line) = .ok part)
              (Text.lines source.toList) parts ∧
            records = parts.flatten) ∧
      (∀ source refusal,
        parse source = .error refusal ↔
          ∃ before line after,
            Text.lines source.toList = before ++ line :: after ∧
              refusal.line = before.length + 1 ∧
              (∀ earlier ∈ before, ∃ part, parse (String.ofList earlier) = .ok part) ∧
              parse (String.ofList line) = .error ⟨1, refusal.complaint⟩) ∧
      ∀ first rest : String, first.toList.getLast? = some '\n' →
        parse (first ++ rest) =
          match parse first with
          | .error refusal => .error refusal
          | .ok records =>
              match parse rest with
              | .error refusal =>
                  .error ⟨refusal.line + (Text.lines first.toList).length, refusal.complaint⟩
              | .ok others => .ok (records ++ others) := by
  refine ⟨?_, ?_, ?_⟩
  · intro source records
    have hfeed : ∀ line ∈ Text.lines source.toList, '\n' ∉ line :=
      fun line hline => Text.noFeed_of_mem_lines hline
    simp only [forall₂_parse_iff hfeed]
    exact parseLines_eq_ok_iff
  · intro source refusal
    rw [parse, parseLines_eq_error_iff]
    refine exists_congr fun before => exists_congr fun line => exists_congr fun after =>
      and_congr_right fun hlines => ?_
    have hfeed : ∀ other ∈ before ++ line :: after, '\n' ∉ other := by
      rw [← hlines]
      exact fun other hother => Text.noFeed_of_mem_lines hother
    have hbefore : ∀ earlier ∈ before,
        (∃ part, parse (String.ofList earlier) = .ok part) ↔
          ∃ part, parseLine earlier = .ok part := by
      intro earlier hearlier
      simp only [parse_line_eq_ok_iff (hfeed earlier (List.mem_append_left _ hearlier))]
    rw [parse_line_eq_error_iff (hfeed line (by simp)), Nat.add_comm 1 before.length]
    exact and_congr_right fun _ => and_congr_left fun _ => forall₂_congr hbefore |>.symm
  · intro first rest hlast
    have hwhole : Text.WholeLines first.toList := by
      intro c hc
      rw [hlast] at hc
      cases hc
      rfl
    exact parse_append hwhole rest

/--
In a listing of two parts the last line of the second has a label and trailing input. It is
refused where it stands in the whole, and its label is no record.
-/
theorem parse_by_lines_trailing :
    parse ("L0: iload_1 # a slot\r\n\n" ++ "L1:\nL2: pop pop\nldc") =
      .error ⟨4, .trailingInput "pop"⟩ := by
  have hfirst : parse "L0: iload_1 # a slot\r\n\n" = .ok [.label ⟨0⟩, .slot .iload 1] := by
    decide +kernel
  have hrest : parse "L1:\nL2: pop pop\nldc" = .error ⟨2, .trailingInput "pop"⟩ := by
    decide +kernel
  have hlines : (Text.lines "L0: iload_1 # a slot\r\n\n".toList).length = 2 := by
    decide +kernel
  rw [parse_by_lines.2.2 _ _ (by decide +kernel), hfirst, hrest, hlines]

end Listing
end SlotFlow
