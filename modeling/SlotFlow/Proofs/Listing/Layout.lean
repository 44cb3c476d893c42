import Mathlib.Logic.Relation
import SlotFlow.Proofs.Text.Lines
import SlotFlow.Proofs.Listing.Boundary
import SlotFlow.Listing.Parse

/-!
# Layout of a listing

Blanks between lexemes, comments, lines that hold nothing, the kind of line ends and whether
labels stand on a line of their own do not matter to what is read.

Main definitions:

* `Content`: the tokens of a row of lines and their records;
* `LineEnd`: what comes behind a line of a text;
* `Skipped`, `LabelLine`: lines that hold nothing, and lines that hold labels only;
* `LineEdit`, `Edit`: changes of the layout of one line and of a text.

Main statements:

* `LabelLine.exists_tokens`: labels are read from the front of what follows them;
* `Edit.keeps`: one change keeps the tokens and the records;
* `parse_relayout`: any number of changes do.
-/

namespace SlotFlow
namespace Listing

variable {line edited pre post rest : List Char} {lines others : List (List Char)}
  {ts : List Token} {rs : List Record} {ls : List Label}

/-- The tokens of lines in a row, and the records that are read from them line by line. -/
inductive Content : List (List Char) → List Token → List Record → Prop
  | nil :
      Content [] [] []
  | cons
      {line : List Char}
      {lines : List (List Char)}
      {ts us : List Token}
      {rs ss : List Record}
      (tokens : tokenize line = .ok ts)
      (read : records ts = .ok rs)
      (later : Content lines us ss) :
      Content (line :: lines) (ts ++ us) (rs ++ ss)

/-- Lines are read as the records of their content. -/
theorem parseLines_eq_ok_iff_content
    {n : Nat} :
    parseLines n lines = .ok rs ↔ ∃ ts, Content lines ts rs := by
  induction lines generalizing n rs with
  | nil =>
      constructor
      · intro h
        cases h
        exact ⟨[], .nil⟩
      · rintro ⟨_, ⟨⟩⟩
        rfl
  | cons line lines ih =>
      constructor
      · intro h
        simp only [parseLines, parseLine] at h
        cases htokens : tokenize line with
        | error text =>
            simp [htokens] at h
        | ok ts =>
            cases hread : records ts with
            | error complaint =>
                simp [htokens, hread] at h
            | ok first =>
                simp only [htokens, hread] at h
                obtain ⟨later, hlater, rfl⟩ := exists_of_map_eq_ok h
                obtain ⟨us, hcontent⟩ := ih.1 hlater
                exact ⟨_, .cons htokens hread hcontent⟩
      · rintro ⟨_, hcontent⟩
        cases hcontent with
        | cons htokens hread hlater =>
            rw [parseLines, parseLine, htokens]
            simp only [hread]
            rw [ih.2 ⟨_, hlater⟩]
            rfl

/-- Other lines have the content that lines have, if they have any. -/
def Keeps
    (lines others : List (List Char)) :
    Prop :=
  ∀ ⦃ts rs⦄, Content lines ts rs → Content others ts rs

theorem Keeps.trans
    {more : List (List Char)}
    (h : Keeps lines others)
    (hmore : Keeps others more) :
    Keeps lines more :=
  fun _ _ hcontent => hmore (h hcontent)

theorem Keeps.cons
    (h : Keeps lines others)
    (line : List Char) :
    Keeps (line :: lines) (line :: others) := by
  intro ts rs hcontent
  cases hcontent with
  | cons htokens hread hlater =>
      exact .cons htokens hread (h hlater)

theorem Keeps.append
    (h : Keeps lines others)
    (first : List (List Char)) :
    Keeps (first ++ lines) (first ++ others) := by
  induction first with
  | nil =>
      exact h
  | cons line first ih =>
      exact ih.cons line

/-- A line may be exchanged for a line of the same tokens. -/
theorem keeps_of_tokenize
    (h : ∀ ⦃ts⦄, tokenize line = .ok ts → tokenize edited = .ok ts)
    (lines : List (List Char)) :
    Keeps (line :: lines) (edited :: lines) := by
  intro ts rs hcontent
  cases hcontent with
  | cons htokens hread hlater =>
      exact .cons (h htokens) hread hlater

/-- A line without lexemes: blanks and perhaps a comment. -/
inductive Skipped : List Char → Prop
  | nil :
      Skipped []
  | blank
      {c : Char}
      {cs : List Char}
      (blank : isBlank c = true)
      (later : Skipped cs) :
      Skipped (c :: cs)
  | comment
      {cs : List Char} :
      Skipped ('#' :: cs)

theorem Skipped.tokenize
    (h : Skipped line) :
    tokenize line = .ok [] := by
  induction h with
  | nil =>
      exact tokenize_of_done rfl
  | blank hblank _ ih =>
      rw [tokenize_blank hblank, ih]
  | comment =>
      exact tokenize_comment _

theorem Skipped.keeps_cons
    (h : Skipped line)
    (lines : List (List Char)) :
    Keeps lines (line :: lines) :=
  fun _ _ hcontent => .cons h.tokenize rfl hcontent

theorem Skipped.keeps_tail
    (h : Skipped line)
    (lines : List (List Char)) :
    Keeps (line :: lines) lines := by
  intro ts rs hcontent
  cases hcontent with
  | cons htokens hread hlater =>
      rw [h.tokenize] at htokens
      cases htokens
      cases hread
      exact hlater

/-- Behind a line is the end of the text, or a line end and the rest of the text. -/
inductive LineEnd : List Char → List Char → Prop
  | none :
      LineEnd [] []
  | feed
      {rest : List Char} :
      LineEnd ('\n' :: rest) rest
  | returnFeed
      {rest : List Char} :
      LineEnd ('\r' :: '\n' :: rest) rest

theorem dropReturn_concat_return
    (line : List Char) :
    Text.dropReturn (line ++ ['\r']) = line := by
  simp [Text.dropReturn]

/-- A carriage return that a line end takes along separates lexemes, so it does not matter. -/
theorem tokenize_dropReturn :
    tokenize (Text.dropReturn line) = .ok ts ↔ tokenize line = .ok ts := by
  unfold Text.dropReturn
  split
  · rename_i hlast
    have hline : line.dropLast ++ ['\r'] = line :=
      List.dropLast_append_getLast? '\r' hlast
    conv_rhs => rw [← hline]
    exact (tokenize_append_blanks (by decide)).symm
  · rfl

/-- The first line of a text, whatever is behind it. -/
theorem lines_of_lineEnd
    (hfeed : '\n' ∉ line)
    (hend : LineEnd post rest) :
    Keeps (Text.lines (line ++ post)) (line :: Text.lines rest) ∧
      Keeps (line :: Text.lines rest) (Text.lines (line ++ post)) := by
  cases hend with
  | none =>
      rw [List.append_nil, Text.lines_of_noFeed hfeed, Text.lines_nil]
      split
      · rename_i hempty
        subst hempty
        exact ⟨Skipped.nil.keeps_cons _, Skipped.nil.keeps_tail _⟩
      · exact ⟨fun _ _ h => h, fun _ _ h => h⟩
  | feed =>
      rw [Text.lines_cons hfeed]
      exact ⟨keeps_of_tokenize (fun _ => tokenize_dropReturn.1) _,
        keeps_of_tokenize (fun _ => tokenize_dropReturn.2) _⟩
  | returnFeed =>
      have hfeed : '\n' ∉ line ++ ['\r'] := by
        simp [hfeed]
      have hlines := Text.lines_cons hfeed rest
      rw [dropReturn_concat_return, List.append_assoc] at hlines
      change Text.lines (line ++ '\r' :: '\n' :: rest) = _ at hlines
      rw [hlines]
      exact ⟨fun _ _ h => h, fun _ _ h => h⟩

/-- A line that defines labels and holds nothing else. -/
inductive LabelLine : List Label → List Char → Prop
  | nil :
      LabelLine [] []
  | blank
      {ls : List Label}
      {c : Char}
      {cs : List Char}
      (blank : isBlank c = true)
      (later : LabelLine ls cs) :
      LabelLine ls (c :: cs)
  | label
      {l : Label}
      {ls : List Label}
      {name gap cs : List Char}
      (word : IsWordText name)
      (named : labelOfWord? (String.ofList name) = some l)
      (blanks : Blanks gap)
      (later : LabelLine ls cs) :
      LabelLine (l :: ls) (name ++ (gap ++ ':' :: cs))

theorem Blanks.noFeed
    {gap : List Char}
    (h : Blanks gap) :
    '\n' ∉ gap := by
  intro hmem
  cases h _ hmem

theorem LabelLine.noFeed
    (h : LabelLine ls line) :
    '\n' ∉ line := by
  induction h with
  | nil =>
      exact List.not_mem_nil
  | blank hblank _ ih =>
      refine List.not_mem_cons_of_ne_of_not_mem ?_ ih
      rintro rfl
      cases hblank
  | label hword _ hblanks _ ih =>
      have hname : '\n' ∉ _ := fun hmem => (hword.onOneLine '\n' hmem).1 rfl
      simp [hname, hblanks.noFeed, ih]

theorem tokenize_colon
    (cs : List Char) :
    tokenize (':' :: cs) = (tokenize cs).map (⟨.colon, ":"⟩ :: ·) :=
  tokenize_of_lexeme rfl

/-- Labels are read from the front of what follows them on their line. -/
theorem LabelLine.exists_tokens
    (h : LabelLine ls line) :
    ∃ us, (∀ rest, tokenize (line ++ rest) = (tokenize rest).map (us ++ ·)) ∧
      ∀ ts, records (us ++ ts) = (records ts).map (ls.map Record.label ++ ·) := by
  induction h with
  | nil =>
      refine ⟨[], fun rest => ?_, fun ts => ?_⟩
      · rw [List.nil_append]
        cases tokenize rest <;> rfl
      · rw [List.nil_append]
        cases records ts <;> rfl
  | blank hblank _ ih =>
      obtain ⟨us, htokens, hread⟩ := ih
      refine ⟨us, fun rest => ?_, hread⟩
      rw [List.cons_append, tokenize_blank hblank, htokens]
  | @label l ls name gap cs hword hname hblanks _ ih =>
      obtain ⟨us, htokens, hread⟩ := ih
      refine ⟨⟨.word, String.ofList name⟩ :: ⟨.colon, ":"⟩ :: us, fun rest => ?_, fun ts => ?_⟩
      · have hbreaks : Breaks (gap ++ ':' :: (cs ++ rest)) := by
          refine @forall_head_append gap [] _ (fun c => isBreak c = true) ?_ (breaks_cons rfl _)
          rw [List.append_nil]
          exact hblanks.breaks
        have hscan := scan_word hword hbreaks
        simp only [List.append_assoc, List.cons_append]
        rw [tokenize_lexeme hscan, tokenize_blanks hblanks, tokenize_colon, htokens]
        cases tokenize rest <;> rfl
      · simp only [List.cons_append]
        rw [records, if_pos ⟨rfl, rfl⟩, hname, hread]
        cases records ts <;> rfl

/-- Labels may stand on the line that follows theirs. -/
theorem LabelLine.keeps_join
    {gap next : List Char}
    (h : LabelLine ls line)
    (hblanks : Blanks gap)
    (lines : List (List Char)) :
    Keeps (line :: next :: lines) ((line ++ (gap ++ next)) :: lines) := by
  obtain ⟨names, htokens, hread⟩ := h.exists_tokens
  intro ts rs hcontent
  cases hcontent with
  | cons hfirst hlabels hcontent =>
      cases hcontent with
      | @cons next lines ts us rs ss hsecond hrecords hlater =>
          have hline := htokens []
          have hnone := hread []
          rw [List.append_nil, hfirst, Skipped.nil.tokenize] at hline
          cases hline
          rw [hlabels] at hnone
          cases hnone
          have hjoined : tokenize (line ++ (gap ++ next)) = .ok (names ++ ts) := by
            rw [htokens, tokenize_blanks hblanks, hsecond]
            rfl
          have hboth : records (names ++ ts) = .ok (ls.map Record.label ++ rs) := by
            rw [hread, hrecords]
            rfl
          simpa using Content.cons hjoined hboth hlater

/-- A change of the layout of a line. -/
inductive LineEdit : List Char → List Char → Prop
  | leading
      {gap line : List Char}
      (blanks : Blanks gap) :
      LineEdit line (gap ++ line)
  | trailing
      {gap line : List Char}
      (blanks : Blanks gap) :
      LineEdit line (line ++ gap)
  | between
      {gap before after : List Char}
      (cut : Cut before after)
      (blanks : Blanks gap) :
      LineEdit (before ++ after) (before ++ (gap ++ after))
  | comment
      {text before after : List Char}
      (cut : Cut before after)
      (last : Skipped after)
      (noFeed : '\n' ∉ text) :
      LineEdit (before ++ after) (before ++ '#' :: (text ++ after))

theorem LineEdit.noFeed
    (h : LineEdit line edited)
    (hline : '\n' ∉ line) :
    '\n' ∉ edited := by
  cases h with
  | leading hblanks =>
      simp [hblanks.noFeed, hline]
  | trailing hblanks =>
      simp [hblanks.noFeed, hline]
  | between _ hblanks =>
      simp only [List.mem_append, not_or] at hline ⊢
      exact ⟨hline.1, hblanks.noFeed, hline.2⟩
  | comment _ _ htext =>
      simp only [List.mem_append, not_or] at hline ⊢
      simp [hline, htext]

/-- A line with changed layout has the same tokens. -/
theorem LineEdit.tokenize
    (h : LineEdit line edited)
    (htokens : tokenize line = .ok ts) :
    tokenize edited = .ok ts := by
  cases h with
  | leading hblanks =>
      rw [tokenize_blanks hblanks, htokens]
  | trailing hblanks =>
      exact (tokenize_append_blanks hblanks).2 htokens
  | @between gap before after hcut hblanks =>
      cases gap with
      | nil =>
          exact htokens
      | cons c gap =>
          have hbreak : isBreak c = true := by
            simp [isBreak, hblanks c List.mem_cons_self]
          have hsame := tokenize_cut hcut (breaks_cons hbreak _) (tokenize_blanks hblanks after)
          exact hsame.trans htokens
  | @comment text before after hcut hlast =>
      have hnone := (tokenize_comment (text ++ after)).trans hlast.tokenize.symm
      exact (tokenize_cut hcut (breaks_cons rfl _) hnone).trans htokens

/-- A change of the layout of a text. -/
inductive Edit : List Char → List Char → Prop
  | line
      {pre line edited post rest : List Char}
      (whole : Text.WholeLines pre)
      (noFeed : '\n' ∉ line)
      (ending : LineEnd post rest)
      (edit : LineEdit line edited) :
      Edit (pre ++ (line ++ post)) (pre ++ (edited ++ post))
  | insert
      {pre line post rest : List Char}
      (whole : Text.WholeLines pre)
      (noFeed : '\n' ∉ line)
      (skipped : Skipped line)
      (ending : LineEnd post rest) :
      Edit (pre ++ rest) (pre ++ (line ++ post))
  | append
      {text line post : List Char}
      (noFeed : '\n' ∉ line)
      (skipped : Skipped line)
      (ending : LineEnd post line) :
      Edit text (text ++ post)
  | returnFeed
      {pre post : List Char} :
      Edit (pre ++ '\n' :: post) (pre ++ '\r' :: '\n' :: post)
  | join
      {ls : List Label}
      {pre line gap post rest : List Char}
      (whole : Text.WholeLines pre)
      (labels : LabelLine ls line)
      (ending : LineEnd post rest)
      (blanks : Blanks gap) :
      Edit (pre ++ (line ++ post)) (pre ++ (line ++ (gap ++ rest)))

/-- A text is a first line and what is behind it. -/
theorem exists_line
    (cs : List Char) :
    ∃ line post rest, cs = line ++ post ∧ '\n' ∉ line ∧ LineEnd post rest := by
  cases Text.lined cs with
  | last noFeed =>
      exact ⟨cs, [], [], by simp, noFeed, .none⟩
  | line noFeed _ =>
      exact ⟨_, _, _, rfl, noFeed, .feed⟩

/-- A text is whole lines and a line that is not ended. -/
theorem exists_wholeLines
    (cs : List Char) :
    ∃ pre line, cs = pre ++ line ∧ Text.WholeLines pre ∧ '\n' ∉ line := by
  induction Text.lined cs with
  | last noFeed =>
      exact ⟨[], _, rfl, Text.wholeLines_nil, noFeed⟩
  | @line line rest _ _ ih =>
      obtain ⟨pre, last, rfl, hwhole, hlast⟩ := ih
      exact ⟨line ++ '\n' :: pre, last, by simp, Text.wholeLines_line_iff.2 hwhole, hlast⟩

/-- Whole lines may be put before both of two texts. -/
theorem keeps_wholeLines
    (hpre : Text.WholeLines pre)
    (h : Keeps (Text.lines post) (Text.lines rest)) :
    Keeps (Text.lines (pre ++ post)) (Text.lines (pre ++ rest)) := by
  rw [Text.lines_append hpre, Text.lines_append hpre]
  exact h.append _

/-- A change of the layout keeps the content of a text. -/
theorem Edit.keeps
    {cs ds : List Char}
    (h : Edit cs ds) :
    Keeps (Text.lines cs) (Text.lines ds) := by
  cases h with
  | line hwhole hfeed hend hedit =>
      refine keeps_wholeLines hwhole ?_
      refine (lines_of_lineEnd hfeed hend).1.trans ?_
      refine Keeps.trans ?_ (lines_of_lineEnd (hedit.noFeed hfeed) hend).2
      exact keeps_of_tokenize (fun _ => hedit.tokenize) _
  | insert hwhole hfeed hskipped hend =>
      refine keeps_wholeLines hwhole ?_
      exact (hskipped.keeps_cons _).trans (lines_of_lineEnd hfeed hend).2
  | @append _ line _ hfeed hskipped hend =>
      obtain ⟨pre, last, rfl, hwhole, hlast⟩ := exists_wholeLines cs
      rw [List.append_assoc]
      refine keeps_wholeLines hwhole ?_
      have hline := (lines_of_lineEnd hlast .none).1
      rw [List.append_nil, Text.lines_nil] at hline
      refine hline.trans (Keeps.trans ?_ (lines_of_lineEnd hlast hend).2)
      refine Keeps.cons ?_ last
      have hnew := (hskipped.keeps_cons _).trans (lines_of_lineEnd hfeed .none).2
      rwa [List.append_nil, Text.lines_nil] at hnew
  | @returnFeed pre post =>
      obtain ⟨pre, last, rfl, hwhole, hlast⟩ := exists_wholeLines pre
      rw [List.append_assoc, List.append_assoc]
      refine keeps_wholeLines hwhole ?_
      exact (lines_of_lineEnd hlast .feed).1.trans (lines_of_lineEnd hlast .returnFeed).2
  | @join ls pre line gap post rest hwhole hlabels hend hblanks =>
      refine keeps_wholeLines hwhole ?_
      obtain ⟨next, behind, later, rfl, hnext, hlater⟩ := exists_line rest
      have hfeed : '\n' ∉ line ++ (gap ++ next) := by
        simp [hlabels.noFeed, hblanks.noFeed, hnext]
      have hlines := (lines_of_lineEnd hfeed hlater).2
      simp only [List.append_assoc] at hlines
      refine Keeps.trans ?_ hlines
      refine (lines_of_lineEnd hlabels.noFeed hend).1.trans ?_
      exact ((lines_of_lineEnd hnext hlater).1.cons line).trans (hlabels.keeps_join hblanks _)

/-- Any number of changes of the layout keep the content of a text. -/
theorem keeps_of_edits
    {cs ds : List Char}
    (h : Relation.ReflTransGen Edit cs ds) :
    Keeps (Text.lines cs) (Text.lines ds) := by
  induction h with
  | refl =>
      exact fun _ _ hcontent => hcontent
  | tail _ hedit ih =>
      exact ih.trans hedit.keeps

/--
A listing that is read is read as the same records after any number of changes of its layout:
blanks in front of a line, at its end or between two of its lexemes, a comment behind its last
lexeme, lines without lexemes, other line ends, labels on the line that follows them. All its
tokens are what they were, the quoted ones to the character.
-/
theorem parse_relayout
    {source edited : String}
    {rs : List Record}
    (hedits : Relation.ReflTransGen Edit source.toList edited.toList)
    (hparse : parse source = .ok rs) :
    parse edited = .ok rs ∧
      ∃ ts, Content (Text.lines source.toList) ts rs ∧
        Content (Text.lines edited.toList) ts rs := by
  obtain ⟨ts, hcontent⟩ := parseLines_eq_ok_iff_content.1 hparse
  have hedited := keeps_of_edits hedits hcontent
  exact ⟨parseLines_eq_ok_iff_content.2 ⟨ts, hedited⟩, ts, hcontent, hedited⟩

/-- A label is joined with its line, and comments are added, around a string like a comment. -/
theorem parse_relayout_quoted :
    parse "L0: ldc \"# :\"#\r\n#" = .ok [.label ⟨0⟩, .load (.string "# :")] := by
  have hsource : parse "L0:\nldc \"# :\"" = .ok [.label ⟨0⟩, .load (.string "# :")] := by
    decide +kernel
  have htokens : tokenize "L0: ldc \"# :\"".toList =
      .ok [⟨.word, "L0"⟩, ⟨.colon, ":"⟩, ⟨.word, "ldc"⟩, ⟨.quoted, "\"# :\""⟩] := by
    decide +kernel
  have hjoin : Edit "L0:\nldc \"# :\"".toList "L0: ldc \"# :\"".toList :=
    @Edit.join [⟨0⟩] [] "L0:".toList [' '] _ _ Text.wholeLines_nil
      (@LabelLine.label _ _ "L0".toList [] _ ⟨rfl, List.all_eq_true.1 rfl⟩
        (by decide +kernel) (by decide) .nil)
      .feed (by decide)
  have hcomment : Edit "L0: ldc \"# :\"".toList "L0: ldc \"# :\"#".toList :=
    @Edit.line [] "L0: ldc \"# :\"".toList _ [] _ Text.wholeLines_nil (by decide +kernel) .none
      (@LineEdit.comment [] "L0: ldc \"# :\"".toList [] (cut_of_tokenize htokens) .nil (by decide))
  have happend : Edit "L0: ldc \"# :\"#".toList "L0: ldc \"# :\"#\r\n#".toList :=
    @Edit.append "L0: ldc \"# :\"#".toList ['#'] _ (by decide) .comment .returnFeed
  have hedits := ((Relation.ReflTransGen.single hjoin).tail hcomment).tail happend
  exact (parse_relayout hedits hsource).1

end Listing
end SlotFlow
