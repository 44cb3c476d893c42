import SlotFlow.Proofs.Listing.Steady

/-!
# Places between lexemes

A line may be cut at any place that is inside no lexeme. Behind the cut it may go on with any
text that has the same tokens, as long as that does not make the last lexeme longer.

Main definitions:

* `Blanks`: texts that only separate lexemes;
* `Cut`: a place in a line that is inside no lexeme.

Main statements:

* `tokenize_cut`: after a cut, a line may go on with any text of the same tokens that starts
  with a break;
* `cut_of_blanks`, `tokenize_append_blanks`: blanks at the end of a line.
-/

namespace SlotFlow
namespace Listing

variable {before after text rest : List Char}

/-- Blanks only. -/
def Blanks
    (cs : List Char) :
    Prop :=
  ∀ c ∈ cs, isBlank c = true

instance : DecidablePred Blanks :=
  fun cs => List.decidableBAll (fun c => isBlank c = true) cs

/-- What ends before every break has no blank. -/
theorem not_isBlank_of
    {p : Char → Bool}
    {c : Char}
    (h : p c = true)
    (hbreak : isBreak c = true → p c = false) :
    isBlank c = false := by
  rw [Bool.eq_false_iff]
  intro hblank
  rw [hbreak (by simp [isBreak, hblank])] at h
  cases h

theorem not_isBlank_of_isDigit
    {c : Char}
    (h : c.isDigit = true) :
    isBlank c = false :=
  not_isBlank_of h isDigit_of_isBreak

theorem not_isBlank_of_isWordPart
    {c : Char}
    (h : isWordPart c = true) :
    isBlank c = false :=
  not_isBlank_of h isWordPart_of_isBreak

theorem tokenize_blanks
    {blanks : List Char}
    (h : Blanks blanks)
    (cs : List Char) :
    tokenize (blanks ++ cs) = tokenize cs := by
  induction blanks with
  | nil =>
      rfl
  | cons c blanks ih =>
      obtain ⟨hfirst, hlater⟩ := List.forall_mem_cons.1 h
      rw [List.cons_append, tokenize_blank hfirst, ih hlater]

theorem not_isBlank_of_mem_spanFormat
    {fraction plain : Bool}
    {cs : List Char}
    {c : Char}
    (h : c ∈ (spanFormat fraction plain cs).2.1) :
    isBlank c = false := by
  cases cs with
  | nil =>
      cases h
  | cons d cs =>
      simp only [spanFormat] at h
      split at h
      · rename_i hletter
        rw [List.mem_singleton.1 h]
        rcases hletter with rfl | rfl <;> rfl
      split at h
      · rename_i hletter
        rw [List.mem_singleton.1 h]
        rcases hletter with rfl | rfl <;> rfl
      split at h
      · rename_i hletter
        rw [List.mem_singleton.1 h]
        rcases hletter.2 with rfl | rfl <;> rfl
      · cases h

/-- A number has no blank inside. -/
theorem not_isBlank_of_mem_spanNumber
    {cs : List Char}
    {c : Char}
    (h : c ∈ (spanNumber cs).2.1) :
    isBlank c = false := by
  simp only [spanNumber, List.mem_append] at h
  rcases h with ((hwhole | hfraction) | hexponent) | hletter
  · exact not_isBlank_of_isDigit (List.mem_takeWhile_imp hwhole)
  · have hparts := spanFraction_eq_iff.1 (Prod.eta (spanFraction (spanDigits cs).2)).symm
    rcases hparts with ⟨hnone, _⟩ | ⟨ds, hsome, _, hds, _⟩
    · rw [hnone] at hfraction
      cases hfraction
    · rw [hsome, List.mem_cons] at hfraction
      rcases hfraction with rfl | hdigit
      · rfl
      · exact not_isBlank_of_isDigit (hds.2 c hdigit)
  · have hparts :=
      spanExponent_eq_iff.1 (Prod.eta (spanExponent (spanFraction (spanDigits cs).2).2)).symm
    rcases hparts with ⟨hnone, _⟩ | ⟨letter, sign, ds, hsome, _, hletter, hsign, hds, _⟩
    · rw [hnone] at hexponent
      cases hexponent
    · rw [hsome, List.mem_cons, List.mem_append] at hexponent
      rcases hexponent with rfl | hmem | hdigit
      · rcases hletter with rfl | rfl <;> rfl
      · rcases hsign with rfl | rfl | rfl
        · cases hmem
        · rw [List.mem_singleton.1 hmem]
          rfl
        · rw [List.mem_singleton.1 hmem]
          rfl
      · exact not_isBlank_of_isDigit (hds.2 c hdigit)
  · exact not_isBlank_of_mem_spanFormat hletter

/-- No lexeme ends in a blank. -/
theorem Lexeme.not_isBlank_last
    {kind : TokenKind}
    (h : Lexeme kind text rest) :
    ∀ c ∈ text.getLast?, isBlank c = false := by
  intro c hc
  have hmem := List.mem_of_mem_getLast? hc
  cases h with
  | mark hmark =>
      rw [List.mem_singleton.1 hmem]
      unfold markKind? at hmark
      split at hmark <;> first | rfl | cases hmark
  | quoted hclosed =>
      rw [← List.cons_append, List.getLast?_concat] at hc
      cases hc
      rfl
  | minus =>
      rw [List.mem_singleton.1 hmem]
      rfl
  | @number _ sign ds rest hsign hdigit hlongest =>
      have hnumber : (spanNumber (ds ++ rest)).2.1 = ds := by
        rw [hlongest]
      rcases List.mem_append.1 hmem with hmem | hmem
      · rcases hsign with rfl | rfl
        · cases hmem
        · rw [List.mem_singleton.1 hmem]
          rfl
      · rw [← hnumber] at hmem
        exact not_isBlank_of_mem_spanNumber hmem
  | word hstart hparts =>
      rcases List.mem_cons.1 hmem with rfl | hmem
      · exact not_isBlank_of_isWordPart (by simp [isWordPart, hstart])
      · exact not_isBlank_of_isWordPart (hparts c hmem)

/--
A line is cut in two inside no lexeme: what is before the cut is made of blanks, of lexemes
that are the longest where they stand, and perhaps of the start of a comment.
-/
inductive Cut : List Char → List Char → Prop
  | start
      {after : List Char} :
      Cut [] after
  | blank
      {c : Char}
      {before after : List Char}
      (blank : isBlank c = true)
      (later : Cut before after) :
      Cut (c :: before) after
  | lexeme
      {kind : TokenKind}
      {text before after : List Char}
      (found : scan (text ++ (before ++ after)) = .lexeme kind text (before ++ after))
      (later : Cut before after) :
      Cut (text ++ before) after
  | comment
      {before after : List Char} :
      Cut ('#' :: before) after

theorem tokenize_comment
    (cs : List Char) :
    tokenize ('#' :: cs) = .ok [] :=
  tokenize_of_done rfl

theorem tokenize_lexeme
    {kind : TokenKind}
    (h : scan (text ++ rest) = .lexeme kind text rest) :
    tokenize (text ++ rest) = (tokenize rest).map (⟨kind, String.ofList text⟩ :: ·) :=
  tokenize_of_lexeme (by rw [dropWhile_of_scan h, h])

/-- After a cut a line may go on with another text of the same tokens. -/
theorem tokenize_cut
    (h : Cut before after)
    (hrest : Breaks rest)
    (htokens : tokenize rest = tokenize after) :
    tokenize (before ++ rest) = tokenize (before ++ after) := by
  induction h with
  | start =>
      exact htokens
  | blank hblank _ ih =>
      rw [List.cons_append, List.cons_append, tokenize_blank hblank, tokenize_blank hblank,
        ih htokens]
  | lexeme hfound _ ih =>
      rw [List.append_assoc, List.append_assoc, tokenize_lexeme hfound,
        tokenize_lexeme (scan_steady hfound hrest), ih htokens]
  | comment =>
      rw [List.cons_append, List.cons_append, tokenize_comment, tokenize_comment]

theorem Cut.blanks
    {blanks : List Char}
    (hblanks : Blanks blanks)
    (h : Cut before after) :
    Cut (blanks ++ before) after := by
  induction blanks with
  | nil =>
      exact h
  | cons c blanks ih =>
      obtain ⟨hfirst, hlater⟩ := List.forall_mem_cons.1 hblanks
      exact .blank hfirst (ih hlater)

theorem eq_comment_of_scan_done
    {cs : List Char}
    (h : scan cs = .done) :
    cs = [] ∨ ∃ more, cs = '#' :: more := by
  cases cs with
  | nil =>
      exact .inl rfl
  | cons c cs =>
      grind [scan]

/-- A line that has tokens may be cut at its end. -/
theorem cut_of_tokenize
    {cs : List Char}
    {ts : List Token}
    (h : tokenize cs = .ok ts) :
    Cut cs [] := by
  fun_induction tokenize cs generalizing ts with
  | case1 cs hscan =>
      rw [← @List.takeWhile_append_dropWhile _ isBlank cs]
      refine .blanks (fun c hc => List.mem_takeWhile_imp hc) ?_
      rcases eq_comment_of_scan_done hscan with hempty | ⟨more, hcomment⟩
      · rw [hempty]
        exact .start
      · rw [hcomment]
        exact .comment
  | case2 =>
      cases h
  | case3 cs kind text rest hscan ih =>
      rw [← @List.takeWhile_append_dropWhile _ isBlank cs]
      refine .blanks (fun c hc => List.mem_takeWhile_imp hc) ?_
      have hwhole := scan_append hscan
      rw [← hwhole] at hscan ⊢
      cases hlater : tokenize rest with
      | error e =>
          rw [hlater] at h
          cases h
      | ok later =>
          exact .lexeme (by simpa using hscan) (ih hlater)

/-- Blanks at the end of a line come behind its lexemes. -/
theorem Lexeme.before_blanks
    {kind : TokenKind}
    {line blanks : List Char}
    (h : Lexeme kind text rest)
    (hline : text ++ line = before ++ blanks)
    (hblanks : Blanks blanks) :
    ∃ more, before = text ++ more ∧ line = more ++ blanks := by
  rcases List.append_eq_append_iff.1 hline with ⟨more, rfl, rfl⟩ | ⟨more, rfl, rfl⟩
  · exact ⟨more, rfl, rfl⟩
  · cases hlast : more.getLast? with
    | none =>
        rw [List.getLast?_eq_none_iff.1 hlast]
        exact ⟨[], by simp, rfl⟩
    | some c =>
        have hblank : isBlank c = true :=
          hblanks c (List.mem_append_left _ (List.mem_of_getLast? hlast))
        have hplain := h.not_isBlank_last c (by simp [List.getLast?_append, hlast])
        rw [hblank] at hplain
        cases hplain

/-- What is before a cut may be cut before the blanks at its end. -/
theorem Cut.before_blanks
    {line blanks : List Char}
    (h : Cut line after)
    (hline : line = before ++ blanks)
    (hblanks : Blanks blanks) :
    Cut before (blanks ++ after) := by
  induction h generalizing before with
  | start =>
      obtain ⟨rfl, _⟩ := List.append_eq_nil_iff.1 hline.symm
      exact .start
  | blank hblank _ ih =>
      cases before with
      | nil =>
          exact .start
      | cons c before =>
          cases hline
          exact .blank hblank (ih rfl)
  | @lexeme kind text line after hfound _ ih =>
      obtain ⟨more, rfl, rfl⟩ := (Lexeme.of_scan hfound).before_blanks hline hblanks
      rw [List.append_assoc] at hfound
      exact .lexeme hfound (ih rfl)
  | comment =>
      cases before with
      | nil =>
          exact .start
      | cons c before =>
          cases hline
          exact .comment

/-- A line that has tokens may be cut before blanks at its end. -/
theorem cut_of_blanks
    {blanks : List Char}
    {ts : List Token}
    (h : tokenize (before ++ blanks) = .ok ts)
    (hblanks : Blanks blanks) :
    Cut before blanks := by
  have hcut := (cut_of_tokenize h).before_blanks rfl hblanks
  rwa [List.append_nil] at hcut

theorem Blanks.breaks
    {blanks : List Char}
    (h : Blanks blanks) :
    Breaks blanks :=
  fun c hc => by simp [isBreak, h c (List.mem_of_mem_head? hc)]

/-- Blanks at the end of a line do not matter. -/
theorem tokenize_append_blanks
    {cs blanks : List Char}
    {ts : List Token}
    (h : Blanks blanks) :
    tokenize (cs ++ blanks) = .ok ts ↔ tokenize cs = .ok ts := by
  have hnone : tokenize blanks = tokenize [] := by
    rw [← tokenize_blanks h [], List.append_nil]
  constructor
  · intro htokens
    have hcut := cut_of_blanks htokens h
    rw [← htokens, ← tokenize_cut hcut breaks_nil hnone.symm, List.append_nil]
  · intro htokens
    rw [tokenize_cut (cut_of_tokenize htokens) h.breaks hnone, List.append_nil, htokens]

end Listing
end SlotFlow
