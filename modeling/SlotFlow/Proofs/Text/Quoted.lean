import SlotFlow.Text.Quoted

/-!
# How the inside of a quoted string is decoded

The inside of a string is read in turns, each of which writes one character. A turn takes a plain
character, or a backslash with its letter, or a backslash with the letter `u` and the four
characters of a code. That the last kind takes more than a pair does no harm: what is accepted
for a code has no backslash in it, so what is left of a row of plain characters and pairs is such
a row again, and no turn ever finds a backslash without its letter.

Main definitions:

* `Aligned`: plain characters and pairs of a backslash and a character, in a row;
* `IsCode`: four characters that are the code of a character;
* `Turn`, `Leaves`: one turn, and turns in a row, with what they write and leave;
* `Refused`: texts whose first escape is bad.

Main statements:

* `IsCode.plain`: nothing in a code is a backslash;
* `Turn.aligned`, `Leaves.aligned`: what turns leave of a row;
* `decode_eq_ok_iff`, `decode_eq_error_iff`: decoding is taking turns to the end, or to the first
  bad escape.
-/

namespace SlotFlow
namespace Text

namespace Hex

/-- Only digits have been read as a number. -/
theorem isSome_digitValue_of_valueFrom
    {start n : Nat}
    {cs : List Char}
    (h : valueFrom? start cs = some n) :
    ∀ c ∈ cs, (digitValue? c).isSome = true := by
  induction cs generalizing start with
  | nil =>
      exact List.forall_mem_nil _
  | cons c cs ih =>
      obtain ⟨d, hdigit, hrest⟩ := Option.bind_eq_some_iff.1 h
      exact List.forall_mem_cons.2 ⟨Option.isSome_of_mem hdigit, ih hrest⟩

/-- Only digits and a plus sign before them have been read as a numeral. -/
theorem isSome_digitValue_of_valueOf
    {n : Nat}
    {cs : List Char}
    (h : valueOf? cs = some n) :
    ∀ c ∈ cs, c = '+' ∨ (digitValue? c).isSome = true := by
  unfold valueOf? at h
  split at h
  · cases h
  · split at h
    · cases h
    · refine List.forall_mem_cons.2 ⟨.inl rfl, fun c hc => .inr ?_⟩
      exact isSome_digitValue_of_valueFrom h c hc
  · exact fun c hc => .inr (isSome_digitValue_of_valueFrom h c hc)

end Hex

namespace Quoted

/-- A row of plain characters and of pairs of a backslash and a character, all on one line. -/
inductive Aligned : List Char → Prop
  | nil :
      Aligned []
  | plain
      {c : Char}
      {rest : List Char}
      (noQuote : c ≠ '"')
      (noBackslash : c ≠ '\\')
      (noFeed : c ≠ '\n')
      (later : Aligned rest) :
      Aligned (c :: rest)
  | pair
      {c : Char}
      {rest : List Char}
      (noFeed : c ≠ '\n')
      (later : Aligned rest) :
      Aligned ('\\' :: c :: rest)

/-- The letters of escapes, each with the character that it stands for. -/
def letters : List (Char × Char) :=
  [('"', '"'), ('\\', '\\'), ('\'', '\''), ('n', '\n'), ('t', '\t'), ('r', '\r')]

/-- The four characters are a numeral for the code point of the character. -/
structure IsCode
    (code : List Char)
    (c : Char) : Prop where
  length : code.length = 4
  value : Hex.valueOf? code = some c.toNat

/-- One turn of decoding, with the character that it writes and the text that it leaves. -/
inductive Turn : List Char → Char → List Char → Prop
  | plain
      {c : Char}
      {rest : List Char}
      (noBackslash : c ≠ '\\') :
      Turn (c :: rest) c rest
  | letter
      {d c : Char}
      {rest : List Char}
      (known : (d, c) ∈ letters) :
      Turn ('\\' :: d :: rest) c rest
  | code
      {code rest : List Char}
      {c : Char}
      (isCode : IsCode code c) :
      Turn ('\\' :: 'u' :: (code ++ rest)) c rest

/-- Turns in a row, with what they have written and what they leave of the text. -/
inductive Leaves (body : List Char) : List Char → List Char → Prop
  | start :
      Leaves body [] body
  | turn
      {written cs rest : List Char}
      {c : Char}
      (earlier : Leaves body written cs)
      (next : Turn cs c rest) :
      Leaves body (written ++ [c]) rest

/--
The text starts with an escape that no turn can take: it has a letter that is none, or the
characters after its `u`, four if there are as many, are no code.
-/
inductive Refused : List Char → EscapeError → Prop
  | letter
      {d : Char}
      {rest : List Char}
      (unknown : d ≠ 'u' ∧ ∀ c, (d, c) ∉ letters) :
      Refused ('\\' :: d :: rest) (.unknownLetter d)
  | code
      {rest : List Char}
      (noCode : ∀ c, ¬ IsCode (rest.take 4) c) :
      Refused ('\\' :: 'u' :: rest) (.badCode (rest.take 4))

variable {body cs rest written : List Char} {c : Char} {e : EscapeError}

theorem charOfLetter_eq_some_iff
    {d : Char} :
    charOfLetter? d = some c ↔ (d, c) ∈ letters := by
  unfold charOfLetter?
  constructor
  · intro h
    repeat' split at h
    all_goals cases h
    all_goals simp_all [letters]
  · intro h
    simp only [letters, List.mem_cons, Prod.mk.injEq, List.not_mem_nil, or_false] at h
    rcases h with ⟨rfl, rfl⟩ | ⟨rfl, rfl⟩ | ⟨rfl, rfl⟩ | ⟨rfl, rfl⟩ | ⟨rfl, rfl⟩ | ⟨rfl, rfl⟩ <;>
      rfl

/-- Every code point but a surrogate is that of its character. -/
theorem charOfCode_eq_some_iff
    {n : Nat} :
    charOfCode? n = some c ↔ n = c.toNat := by
  unfold charOfCode?
  constructor
  · intro h
    split at h
    · rename_i hvalid
      cases h
      rw [Char.ofNat, dif_pos hvalid]
      rfl
    · cases h
  · rintro rfl
    have hvalid : c.toNat.isValidChar := c.valid
    rw [if_pos hvalid, Char.ofNat_toNat]

theorem charOfEscape_eq_some_iff
    {code : List Char} :
    charOfEscape? code = some c ↔ IsCode code c := by
  unfold charOfEscape?
  constructor
  · intro h
    split at h
    · rename_i hlength
      obtain ⟨n, hvalue, hchar⟩ := Option.bind_eq_some_iff.1 h
      rw [charOfCode_eq_some_iff.1 hchar] at hvalue
      exact ⟨hlength, hvalue⟩
    · cases h
  · rintro ⟨hlength, hvalue⟩
    rw [if_pos hlength, hvalue]
    exact charOfCode_eq_some_iff.2 rfl

/-- A code holds nothing but hexadecimal digits and perhaps a plus sign, so no backslash. -/
theorem IsCode.plain
    {code : List Char}
    (h : IsCode code c) :
    '\\' ∉ code := by
  intro hmem
  rcases Hex.isSome_digitValue_of_valueOf h.value _ hmem with hplus | hdigit
  · cases hplus
  · cases hdigit

/-- A row without backslashes is plain, so a row goes on behind it. -/
theorem Aligned.behind
    {before : List Char}
    (hplain : '\\' ∉ before)
    (h : Aligned (before ++ rest)) :
    Aligned rest := by
  induction before with
  | nil =>
      exact h
  | cons c before ih =>
      rw [List.mem_cons, not_or] at hplain
      rw [List.cons_append] at h
      generalize hcs : before ++ rest = cs at h ih
      cases h with
      | plain _ _ _ later =>
          exact ih hplain.2 later
      | pair =>
          exact absurd rfl hplain.1

/-- One turn leaves a row of plain characters and pairs, also if it takes the rest of a code. -/
theorem Turn.aligned
    (hturn : Turn cs c rest)
    (h : Aligned cs) :
    Aligned rest := by
  cases hturn with
  | plain hback =>
      cases h with
      | plain _ _ _ later =>
          exact later
      | pair =>
          exact absurd rfl hback
  | letter =>
      cases h with
      | plain _ hback =>
          exact absurd rfl hback
      | pair _ later =>
          exact later
  | code hcode =>
      cases h with
      | plain _ hback =>
          exact absurd rfl hback
      | pair _ later =>
          exact later.behind hcode.plain

/-- At every turn what is left is a row of plain characters and pairs. -/
theorem Leaves.aligned
    (h : Leaves body written rest)
    (hbody : Aligned body) :
    Aligned rest := by
  induction h with
  | start =>
      exact hbody
  | turn _ hnext ih =>
      exact hnext.aligned ih

/-- A row never comes down to a backslash without its letter. -/
theorem not_aligned_backslash :
    ¬ Aligned ['\\'] := by
  intro h
  cases h with
  | plain _ hback =>
      exact hback rfl

/-- A turn writes the first character of what is decoded, and leaves the rest to be decoded. -/
theorem Turn.decode
    (h : Turn cs c rest) :
    decode cs = (decode rest).map (c :: ·) := by
  cases h with
  | plain hback =>
      exact decode_cons_plain hback rest
  | @letter d _ _ hknown =>
      have hletter := charOfLetter_eq_some_iff.2 hknown
      have hu : d ≠ 'u' := by
        rintro rfl
        cases hletter
      exact decode_cons_letter hu hletter rest
  | code hcode =>
      exact decode_cons_code hcode.length (charOfEscape_eq_some_iff.2 hcode) rest

/-- Turns write the first characters of what is decoded. -/
theorem Leaves.decode
    (h : Leaves body written rest) :
    decode body = (decode rest).map (written ++ ·) := by
  induction h with
  | start =>
      cases Quoted.decode body <;> rfl
  | turn _ hnext ih =>
      rw [ih, hnext.decode]
      cases Quoted.decode _ with
      | error e =>
          rfl
      | ok s =>
          simp [Except.map]

/-- The first bad escape is what is reported. -/
theorem Refused.decode
    (h : Refused cs e) :
    decode cs = .error e := by
  cases h with
  | @letter d rest hunknown =>
      obtain ⟨hu, hnone⟩ := hunknown
      have hletter : charOfLetter? d = none := by
        rw [Option.eq_none_iff_forall_ne_some]
        exact fun c hc => hnone c (charOfLetter_eq_some_iff.1 hc)
      rw [Quoted.decode]
      simp [hu, hletter]
  | @code rest hnone =>
      have hcode : charOfEscape? (rest.take 4) = none := by
        rw [Option.eq_none_iff_forall_ne_some]
        exact fun c hc => hnone c (charOfEscape_eq_some_iff.1 hc)
      rw [Quoted.decode]
      simp [hcode]

theorem decode_nil :
    decode [] = .ok [] := by
  rw [decode]

/-- Where there is text, there is a turn to take, or a bad escape, or half of an escape. -/
theorem turn_or_refused
    (hnil : cs ≠ [])
    (hback : cs ≠ ['\\']) :
    (∃ c rest, Turn cs c rest) ∨ ∃ e, Refused cs e := by
  match cs with
  | [c] =>
      have hc : c ≠ '\\' := by
        rintro rfl
        exact hback rfl
      exact .inl ⟨c, [], .plain hc⟩
  | c :: d :: rest =>
      by_cases hc : c = '\\'
      · subst hc
        by_cases hu : d = 'u'
        · subst hu
          by_cases hcode : ∃ c, IsCode (rest.take 4) c
          · obtain ⟨c, hcode⟩ := hcode
            have hturn : Turn ('\\' :: 'u' :: (rest.take 4 ++ rest.drop 4)) c (rest.drop 4) :=
              .code hcode
            rw [List.take_append_drop] at hturn
            exact .inl ⟨c, _, hturn⟩
          · exact .inr ⟨_, .code (not_exists.1 hcode)⟩
        · by_cases hletter : ∃ c, (d, c) ∈ letters
          · obtain ⟨c, hletter⟩ := hletter
            exact .inl ⟨c, rest, .letter hletter⟩
          · exact .inr ⟨_, .letter ⟨hu, not_exists.1 hletter⟩⟩
      · exact .inl ⟨c, d :: rest, .plain hc⟩

theorem Turn.length
    (h : Turn cs c rest) :
    rest.length < cs.length := by
  cases h <;> simp only [List.length_cons, List.length_append] <;> omega

/-- Turns can be taken up to the end, to a bad escape, or to half of an escape. -/
theorem Leaves.last
    {written cs : List Char}
    (h : Leaves body written cs) :
    ∃ written rest, Leaves body written rest ∧
      (rest = [] ∨ rest = ['\\'] ∨ ∃ e, Refused rest e) := by
  by_cases hnil : cs = []
  · exact ⟨written, cs, h, .inl hnil⟩
  by_cases hback : cs = ['\\']
  · exact ⟨written, cs, h, .inr (.inl hback)⟩
  rcases turn_or_refused hnil hback with ⟨c, rest, hturn⟩ | hrefused
  · have hshorter := hturn.length
    exact (h.turn hturn).last
  · exact ⟨written, cs, h, .inr (.inr hrefused)⟩
termination_by cs.length

/-- Decoding succeeds exactly if turns come to the end, and gives what they have written. -/
theorem decode_eq_ok_iff
    (hbody : Aligned body)
    {s : List Char} :
    decode body = .ok s ↔ Leaves body s [] := by
  constructor
  · intro hdecode
    obtain ⟨written, rest, hleaves, rfl | rfl | ⟨e, hrefused⟩⟩ := (@Leaves.start body).last
    · rw [hleaves.decode, decode_nil] at hdecode
      simp only [Except.map, List.append_nil, Except.ok.injEq] at hdecode
      rwa [← hdecode]
    · exact absurd (hleaves.aligned hbody) not_aligned_backslash
    · rw [hleaves.decode, hrefused.decode] at hdecode
      cases hdecode
  · intro hleaves
    rw [hleaves.decode, decode_nil]
    simp [Except.map]

/-- Decoding a row fails exactly if turns come to a bad escape, and reports that one. -/
theorem decode_eq_error_iff
    (hbody : Aligned body) :
    decode body = .error e ↔ ∃ written rest, Leaves body written rest ∧ Refused rest e := by
  constructor
  · intro hdecode
    obtain ⟨written, rest, hleaves, rfl | rfl | ⟨other, hrefused⟩⟩ := (@Leaves.start body).last
    · rw [hleaves.decode, decode_nil] at hdecode
      cases hdecode
    · exact absurd (hleaves.aligned hbody) not_aligned_backslash
    · refine ⟨written, rest, hleaves, ?_⟩
      rw [hleaves.decode, hrefused.decode] at hdecode
      cases hdecode
      exact hrefused
  · rintro ⟨written, rest, hleaves, hrefused⟩
    rw [hleaves.decode, hrefused.decode]
    rfl

/-- The end of a row is never found behind a backslash. -/
theorem decode_ne_dangling
    (hbody : Aligned body) :
    decode body ≠ .error .dangling := by
  rw [Ne, decode_eq_error_iff hbody]
  rintro ⟨_, _, _, hrefused⟩
  cases hrefused

end Quoted
end Text
end SlotFlow
