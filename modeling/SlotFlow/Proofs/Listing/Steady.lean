import Mathlib.Data.List.TakeWhile
import SlotFlow.Proofs.Listing.Spelling

/-!
# Lexemes and what is behind them

To find the longest lexeme a reader may have to look beyond its end: whether an `e` behind a
number is part of it depends on the characters after the `e`. So a change of the text further
on could, as far as one sees, make an earlier lexeme longer or shorter. It does not if the
changed text starts with a character at which words and numbers end.

Main definitions:

* `Steady`: ways to split off the front of a text that such a change does not disturb;
* `Lexeme`: the ways in which a lexeme is found.

Main statements:

* `spanDigits_eq_iff`, `spanFraction_eq_iff`, `spanExponent_eq_iff`: what the parts of a number
  are;
* `Lexeme.of_scan`, `Lexeme.scan`: all that is found is found in one of the ways, and else
  nothing;
* `scan_steady`: finding a lexeme is not disturbed.
-/

namespace SlotFlow
namespace Listing

variable {before after other text rest : List Char}

/-- No digit comes first. -/
def NoDigit
    (cs : List Char) :
    Prop :=
  ∀ c ∈ cs.head?, c.isDigit = false

theorem Breaks.noDigit
    (h : Breaks other) :
    NoDigit other :=
  fun c hc => isDigit_of_isBreak (h c hc)

/-- What is said of the first character holds still when only a later part has changed. -/
theorem forall_head_append
    {p : Char → Prop}
    (h : ∀ c ∈ (before ++ after).head?, p c)
    (hother : ∀ c ∈ other.head?, p c) :
    ∀ c ∈ (before ++ other).head?, p c := by
  cases before with
  | nil =>
      exact hother
  | cons c before =>
      exact h

theorem NoDigit.change
    (h : NoDigit (before ++ after))
    (hother : Breaks other) :
    NoDigit (before ++ other) :=
  forall_head_append h hother.noDigit

/--
A way to split off the front of a text that takes the same part when the text has changed
behind it, if the changed text starts with a break.
-/
def Steady
    (split : List Char → List Char × List Char) :
    Prop :=
  ∀ taken before after other,
    split (taken ++ (before ++ after)) = (taken, before ++ after) → Breaks other →
      split (taken ++ (before ++ other)) = (taken, before ++ other)

/-- Digits are split off up to the first character that is none. -/
theorem spanDigits_eq_iff
    {cs ds : List Char} :
    spanDigits cs = (ds, rest) ↔
      cs = ds ++ rest ∧ (∀ c ∈ ds, c.isDigit = true) ∧ NoDigit rest := by
  constructor
  · intro h
    simp only [spanDigits, Prod.mk.injEq] at h
    obtain ⟨rfl, rfl⟩ := h
    refine ⟨List.takeWhile_append_dropWhile.symm, ?_, ?_⟩
    · exact fun c hc => List.mem_takeWhile_imp hc
    · intro c hc
      have hhead := List.head?_dropWhile_not Char.isDigit cs
      rw [hc] at hhead
      simpa using hhead
  · rintro ⟨rfl, hds, hrest⟩
    obtain ⟨htake, hdrop⟩ := takeWhile_append_of_break hds hrest
    rw [spanDigits, htake, hdrop]

theorem spanDigits_eq_nil_iff
    {cs : List Char} :
    (spanDigits cs).1 = [] ↔ NoDigit cs := by
  have hsplit := spanDigits_append cs
  constructor
  · intro h
    rw [h] at hsplit
    have heq : spanDigits cs = ([], cs) := Prod.ext h hsplit
    exact (spanDigits_eq_iff.1 heq).2.2
  · intro h
    rw [spanDigits_eq_iff.2 ⟨(List.nil_append cs).symm, by simp, h⟩]

theorem spanDigits_steady :
    Steady spanDigits := by
  intro taken before after other h hother
  obtain ⟨_, hds, hrest⟩ := spanDigits_eq_iff.1 h
  exact spanDigits_eq_iff.2 ⟨rfl, hds, hrest.change hother⟩

/-- No point with a digit behind it comes first. -/
def NoFraction
    (cs : List Char) :
    Prop :=
  ∀ more, cs = '.' :: more → NoDigit more

/-- No exponent comes first: no digit is behind its letter and its sign. -/
def NoExponent
    (cs : List Char) :
    Prop :=
  ∀ c more, cs = c :: more → c = 'e' ∨ c = 'E' → NoDigit (spanSign more).2

theorem NoFraction.change
    (h : NoFraction (before ++ after))
    (hother : Breaks other) :
    NoFraction (before ++ other) := by
  intro more hmore
  cases before with
  | nil =>
      rw [List.nil_append] at hmore
      subst hmore
      cases hother '.' rfl
  | cons c before =>
      cases hmore
      exact (h _ rfl).change hother

/-- A sign is looked for in the first character only. -/
theorem noDigit_spanSign_change
    (h : NoDigit (spanSign (before ++ after)).2)
    (hother : Breaks other) :
    NoDigit (spanSign (before ++ other)).2 := by
  cases before with
  | nil =>
      cases other with
      | nil =>
          simp [spanSign, NoDigit]
      | cons d other =>
          have hsign : ¬ (d = '-' ∨ d = '+') := by
            rintro (rfl | rfl) <;> cases hother _ rfl
          simp only [List.nil_append, spanSign, if_neg hsign]
          exact hother.noDigit
  | cons c before =>
      simp only [List.cons_append, spanSign] at h ⊢
      split at h
      · rename_i hsign
        rw [if_pos hsign]
        exact NoDigit.change h hother
      · rename_i hsign
        rw [if_neg hsign]
        exact @NoDigit.change (c :: before) after other h hother

theorem NoExponent.change
    (h : NoExponent (before ++ after))
    (hother : Breaks other) :
    NoExponent (before ++ other) := by
  intro c more hmore hletter
  cases before with
  | nil =>
      rw [List.nil_append] at hmore
      subst hmore
      rcases hletter with rfl | rfl <;> cases hother _ rfl
  | cons d before =>
      cases hmore
      exact noDigit_spanSign_change (h _ _ rfl hletter) hother

/-- A fraction is a point with digits behind it, as many as there are. -/
theorem spanFraction_eq_iff
    {cs fraction : List Char} :
    spanFraction cs = (fraction, rest) ↔
      (fraction = [] ∧ rest = cs ∧ NoFraction cs) ∨
        ∃ ds, fraction = '.' :: ds ∧ cs = '.' :: (ds ++ rest) ∧ IsDigits ds ∧ NoDigit rest := by
  constructor
  · intro h
    unfold spanFraction at h
    split at h
    · rename_i more
      have hsplit := spanDigits_eq_iff.1 (Prod.eta (spanDigits more)).symm
      simp only at h
      split at h
      · rename_i hempty
        cases h
        refine .inl ⟨rfl, rfl, ?_⟩
        rintro _ ⟨rfl⟩
        exact spanDigits_eq_nil_iff.1 (by simpa using hempty)
      · rename_i hnonempty
        cases h
        exact .inr ⟨_, rfl, congrArg _ hsplit.1, ⟨by simpa using hnonempty, hsplit.2.1⟩,
          hsplit.2.2⟩
    · rename_i hpoint
      cases h
      exact .inl ⟨rfl, rfl, fun more hmore => absurd hmore (hpoint more)⟩
  · rintro (⟨rfl, rfl, hnone⟩ | ⟨ds, rfl, rfl, hds, hrest⟩)
    · unfold spanFraction
      split
      · rename_i more
        have hempty := spanDigits_eq_nil_iff.2 (hnone more rfl)
        simp [hempty]
      · rfl
    · exact spanFraction_of_isDigits hds hrest

theorem spanFraction_steady :
    Steady spanFraction := by
  intro taken before after other h hother
  rw [spanFraction_eq_iff] at h ⊢
  rcases h with ⟨rfl, _, hnone⟩ | ⟨ds, rfl, _, hds, hrest⟩
  · exact .inl ⟨rfl, rfl, @NoFraction.change before after other hnone hother⟩
  · exact .inr ⟨ds, rfl, rfl, hds, hrest.change hother⟩

/-- A sign, if any, that an exponent may have. -/
def IsExponentSign
    (cs : List Char) :
    Prop :=
  cs = [] ∨ cs = ['-'] ∨ cs = ['+']

theorem isExponentSign_spanSign
    (cs : List Char) :
    IsExponentSign (spanSign cs).1 := by
  cases cs with
  | nil =>
      exact .inl rfl
  | cons c cs =>
      simp only [spanSign]
      split
      · rename_i hsign
        rcases hsign with rfl | rfl <;> simp [IsExponentSign]
      · exact .inl rfl

theorem spanSign_append_digits
    {sign ds : List Char}
    (hsign : IsExponentSign sign)
    (hds : IsDigits ds)
    (rest : List Char) :
    spanSign (sign ++ (ds ++ rest)) = (sign, ds ++ rest) := by
  rcases hsign with rfl | rfl | rfl
  · cases ds with
    | nil =>
        exact absurd rfl hds.1
    | cons d ds =>
        have hdigit : d.isDigit = true := hds.2 d (by simp)
        have hplain : ¬ (d = '-' ∨ d = '+') := by
          rintro (rfl | rfl) <;> cases hdigit
        simp [spanSign, hplain]
  · rfl
  · rfl

/-- An exponent is a letter, perhaps a sign, and digits, as many as there are. -/
theorem spanExponent_eq_iff
    {cs exponent : List Char} :
    spanExponent cs = (exponent, rest) ↔
      (exponent = [] ∧ rest = cs ∧ NoExponent cs) ∨
        ∃ c sign ds, exponent = c :: (sign ++ ds) ∧ cs = c :: (sign ++ (ds ++ rest)) ∧
          (c = 'e' ∨ c = 'E') ∧ IsExponentSign sign ∧ IsDigits ds ∧ NoDigit rest := by
  constructor
  · intro h
    cases cs with
    | nil =>
        cases h
        exact .inl ⟨rfl, rfl, nofun⟩
    | cons c more =>
        have hsign := spanSign_append more
        have hsplit := spanDigits_eq_iff.1 (Prod.eta (spanDigits (spanSign more).2)).symm
        simp only [spanExponent] at h
        split at h
        · rename_i hletter
          split at h
          · rename_i hempty
            cases h
            refine .inl ⟨rfl, rfl, ?_⟩
            rintro _ _ ⟨rfl⟩ _
            exact spanDigits_eq_nil_iff.1 (by simpa using hempty)
          · rename_i hnonempty
            cases h
            refine .inr ⟨c, _, _, rfl, ?_, hletter, isExponentSign_spanSign more,
              ⟨by simpa using hnonempty, hsplit.2.1⟩, hsplit.2.2⟩
            rw [← hsplit.1, hsign]
        · rename_i hletter
          cases h
          refine .inl ⟨rfl, rfl, ?_⟩
          rintro _ _ ⟨rfl⟩ hc
          exact absurd hc hletter
  · rintro (⟨rfl, rfl, hnone⟩ | ⟨c, sign, ds, rfl, rfl, hletter, hsign, hds, hrest⟩)
    · cases rest with
      | nil =>
          rfl
      | cons c more =>
          by_cases hletter : c = 'e' ∨ c = 'E'
          · have hempty := spanDigits_eq_nil_iff.2 (hnone c more rfl hletter)
            simp [spanExponent, hletter, hempty]
          · simp [spanExponent, hletter]
    · have hempty : ds.isEmpty = false := by
        simpa using hds.1
      simp [spanExponent, hletter, spanSign_append_digits hsign hds,
        spanDigits_of_isDigits hds hrest, hempty]

theorem spanExponent_steady :
    Steady spanExponent := by
  intro taken before after other h hother
  rw [spanExponent_eq_iff] at h ⊢
  rcases h with ⟨rfl, _, hnone⟩ | ⟨c, sign, ds, rfl, _, hletter, hsign, hds, hrest⟩
  · exact .inl ⟨rfl, rfl, @NoExponent.change before after other hnone hother⟩
  · refine .inr ⟨c, sign, ds, rfl, ?_, hletter, hsign, hds, hrest.change hother⟩
    rw [List.cons_append, List.append_assoc]

/-- A number without a letter for its format has the kind that its fraction decides. -/
theorem kind_of_spanFormat_nil
    {fraction plain : Bool}
    {kind : TokenKind}
    {cs : List Char}
    (h : spanFormat fraction plain cs = (kind, [], rest)) :
    kind = if fraction then .double else .int := by
  cases cs with
  | nil =>
      cases h
      rfl
  | cons c cs =>
      grind [spanFormat]

theorem spanFormat_of_breaks
    {fraction plain : Bool}
    (h : Breaks other) :
    spanFormat fraction plain other = (if fraction then .double else .int, [], other) := by
  cases other with
  | nil =>
      rfl
  | cons c other =>
      rcases isBreak_cases (h c rfl) with rfl | rfl | rfl | rfl | rfl | rfl | rfl | rfl <;>
        simp [spanFormat]

/-- Whether a letter names a format is decided by the letter alone. -/
theorem spanFormat_steady
    {fraction plain : Bool}
    {kind : TokenKind}
    {letter : List Char}
    (h : spanFormat fraction plain (letter ++ (before ++ after)) = (kind, letter, before ++ after))
    (hother : Breaks other) :
    spanFormat fraction plain (letter ++ (before ++ other)) = (kind, letter, before ++ other) := by
  cases letter with
  | nil =>
      cases before with
      | nil =>
          rw [kind_of_spanFormat_nil h]
          exact spanFormat_of_breaks hother
      | cons c before =>
          grind [spanFormat]
  | cons c letter =>
      grind [spanFormat]

/-- A number is split off in the same way when the text has changed behind it. -/
theorem spanNumber_steady
    {kind : TokenKind}
    (h : spanNumber (text ++ (before ++ after)) = (kind, text, before ++ after))
    (hother : Breaks other) :
    spanNumber (text ++ (before ++ other)) = (kind, text, before ++ other) := by
  rcases hwhole : spanDigits (text ++ (before ++ after)) with ⟨whole, first⟩
  rcases hfraction : spanFraction first with ⟨fraction, second⟩
  rcases hexponent : spanExponent second with ⟨exponent, third⟩
  rcases hformat : spanFormat (!fraction.isEmpty) (fraction.isEmpty && exponent.isEmpty) third with
    ⟨kind', letter, last⟩
  simp only [spanNumber, hwhole, hfraction, hexponent, hformat, Prod.mk.injEq] at h
  obtain ⟨rfl, htext, rfl⟩ := h
  have hthird := spanFormat_append (!fraction.isEmpty) (fraction.isEmpty && exponent.isEmpty) third
  have hsecond := spanExponent_append second
  have hfirst := spanFraction_append first
  rw [hformat] at hthird
  rw [hexponent] at hsecond
  rw [hfraction] at hfirst
  simp only at hthird hsecond hfirst
  subst hthird hsecond hfirst htext
  -- what is behind a part begins with the parts that follow it
  have hdigits := spanDigits_steady whole (fraction ++ (exponent ++ (letter ++ before))) after other
    (by simpa using hwhole) hother
  have hpoint := spanFraction_steady fraction (exponent ++ (letter ++ before)) after other
    (by simpa using hfraction) hother
  have hpower := spanExponent_steady exponent (letter ++ before) after other
    (by simpa using hexponent) hother
  have hletter := spanFormat_steady hformat hother
  simp only [List.append_assoc] at hdigits hpoint hpower hletter
  simp [spanNumber, hdigits, hpoint, hpower, hletter]

/-- The inside of a quoted string ends at its quote, whatever follows that. -/
theorem spanQuoted_again
    {cs inside : List Char}
    (h : spanQuoted cs = (inside, some rest))
    (other : List Char) :
    spanQuoted (inside ++ '"' :: other) = (inside, some other) := by
  fun_induction spanQuoted cs generalizing inside with
  | case1 | case3 =>
      cases h
  | case2 =>
      cases h
      rw [List.nil_append, spanQuoted.eq_def]
      simp
  | case4 d cs within left hspan _ ih =>
      cases h
      rw [List.cons_append, List.cons_append, spanQuoted_escape, ih hspan]
  | case5 c cs hquote hback within left hspan ih =>
      cases h
      rw [List.cons_append, spanQuoted_plain hquote hback, ih hspan]

/-- The ways in which a lexeme is found before a rest. -/
inductive Lexeme : TokenKind → List Char → List Char → Prop
  | mark
      {c : Char}
      {kind : TokenKind}
      {rest : List Char}
      (mark : markKind? c = some kind) :
      Lexeme kind [c] rest
  | quoted
      {inside rest : List Char}
      (closed : spanQuoted (inside ++ '"' :: rest) = (inside, some rest)) :
      Lexeme .quoted ('"' :: (inside ++ ['"'])) rest
  | minus
      {rest : List Char}
      (noDigit : NoDigit rest) :
      Lexeme .minus ['-'] rest
  | number
      {kind : TokenKind}
      {sign ds rest : List Char}
      (signed : IsSign sign)
      (digit : ds.head?.any Char.isDigit = true)
      (longest : spanNumber (ds ++ rest) = (kind, ds, rest)) :
      Lexeme kind (sign ++ ds) rest
  | word
      {c : Char}
      {cs rest : List Char}
      (start : isWordStart c = true)
      (parts : ∀ d ∈ cs, isWordPart d = true)
      (longest : ∀ d ∈ rest.head?, isWordPart d = false) :
      Lexeme .word (c :: cs) rest

theorem not_noDigit_iff
    {cs : List Char} :
    ¬ NoDigit cs ↔ cs.head?.any Char.isDigit = true := by
  cases cs <;> simp [NoDigit]

/-- A number starts with the digit that comes first. -/
theorem head_spanNumber
    {cs : List Char}
    (h : cs.head?.any Char.isDigit = true) :
    (spanNumber cs).2.1.head?.any Char.isDigit = true := by
  cases cs with
  | nil =>
      cases h
  | cons c cs =>
      have hdigit : c.isDigit = true := h
      have hwhole : (spanDigits (c :: cs)).1 = c :: (spanDigits cs).1 := by
        simp [spanDigits, hdigit]
      simp [spanNumber, hwhole, hdigit]

theorem head_append_of_any
    {p : Char → Bool}
    {cs : List Char}
    (h : cs.head?.any p = true)
    (rest : List Char) :
    (cs ++ rest).head?.any p = true := by
  cases cs with
  | nil =>
      cases h
  | cons c cs =>
      exact h

/-- What is found as a number is one. -/
theorem Lexeme.number_of_digit
    {sign cs : List Char}
    (hsign : IsSign sign)
    (hdigit : cs.head?.any Char.isDigit = true) :
    Lexeme (spanNumber cs).1 (sign ++ (spanNumber cs).2.1) (spanNumber cs).2.2 := by
  refine .number hsign (head_spanNumber hdigit) ?_
  rw [spanNumber_append]

/-- What is found is found in one of the ways. -/
theorem Lexeme.of_scan
    {cs : List Char}
    {kind : TokenKind}
    (h : scan cs = .lexeme kind text rest) :
    Lexeme kind text rest := by
  unfold scan at h
  split at h
  · cases h
  rename_i c cs
  split at h
  · cases h
  split at h
  · rename_i hmark
    cases h
    exact .mark hmark
  split at h
  · rename_i hquote
    subst hquote
    split at h
    · rename_i hspan
      cases h
      have hclosed := hspan
      rw [← spanQuoted_append hspan] at hclosed
      exact .quoted hclosed
    · cases h
  split at h
  · rename_i hminus
    subst hminus
    split at h
    · rename_i hempty
      cases h
      exact .minus (spanDigits_eq_nil_iff.1 (List.isEmpty_iff.1 hempty))
    · rename_i hnonempty
      cases h
      rw [List.isEmpty_iff, spanDigits_eq_nil_iff, not_noDigit_iff] at hnonempty
      exact .number_of_digit (.inr rfl) hnonempty
  split at h
  · rename_i hdigit
    cases h
    exact .number_of_digit (.inl rfl) hdigit
  split at h
  · rename_i hstart
    cases h
    refine .word hstart (fun d hd => List.mem_takeWhile_imp hd) ?_
    intro d hd
    have hhead := List.head?_dropWhile_not isWordPart cs
    rw [hd] at hhead
    simpa using hhead
  · cases h

/-- What may be found is found. -/
theorem Lexeme.scan
    {kind : TokenKind}
    (h : Lexeme kind text rest) :
    scan (text ++ rest) = .lexeme kind text rest := by
  cases h with
  | mark hmark =>
      exact scan_mark hmark rest
  | quoted hclosed =>
      simp [Listing.scan, markKind?, hclosed]
  | minus hnone =>
      have hempty := spanDigits_eq_nil_iff.2 hnone
      simp [Listing.scan, markKind?, hempty]
  | number hsign hdigit hlongest =>
      rw [List.append_assoc]
      exact scan_signed hsign (head_append_of_any hdigit rest) hlongest
  | word hstart hparts hlongest =>
      obtain ⟨htake, hdrop⟩ := takeWhile_append_of_break hparts hlongest
      rw [List.cons_append, scan_wordStart hstart, htake, hdrop]

/-- Finding a lexeme is not disturbed by a change behind it that starts with a break. -/
theorem scan_steady
    {kind : TokenKind}
    (h : scan (text ++ (before ++ after)) = .lexeme kind text (before ++ after))
    (hother : Breaks other) :
    scan (text ++ (before ++ other)) = .lexeme kind text (before ++ other) := by
  have hlexeme : Lexeme kind text (before ++ other) := by
    cases Lexeme.of_scan h with
    | mark hmark =>
        exact .mark hmark
    | quoted hclosed =>
        exact .quoted (spanQuoted_again hclosed _)
    | minus hnone =>
        exact .minus (hnone.change hother)
    | number hsign hdigit hlongest =>
        exact .number hsign hdigit (spanNumber_steady hlongest hother)
    | word hstart hparts hlongest =>
        exact .word hstart hparts
          (forall_head_append hlongest fun c hc => isWordPart_of_isBreak (hother c hc))
  exact hlexeme.scan

end Listing
end SlotFlow
