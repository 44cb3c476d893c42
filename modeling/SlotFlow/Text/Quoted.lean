import SlotFlow.Text.Hex

/-!
# Quoted strings of a listing

Inside the quotes a backslash introduces an escape: itself, either quote, `n`, `t`,
`r`, or `u` and the four hexadecimal digits of a code point.

Main definitions:

* `encode`: the text between the quotes for a string;
* `decode`: the string for the text between the quotes, or what is wrong with it.

Main statement:

* `decode_encode`: decoding what was encoded gives the string back.
-/

namespace SlotFlow
namespace Text
namespace Quoted

/-- What is wrong with an escape. -/
inductive EscapeError where
  /-- No escape has this letter. -/
  | unknownLetter (c : Char)
  /-- These characters after the letter `u` are not the code of a character. -/
  | badCode (code : List Char)
  /-- The text ends after a backslash. -/
  | dangling
deriving DecidableEq

/-- The wording of an error. -/
def EscapeError.message : EscapeError → String
  | unknownLetter c => "invalid escape '\\" ++ String.singleton c ++ "'"
  | badCode code => "invalid escape '\\u" ++ String.ofList code ++ "'"
  | dangling => "dangling escape"

/-- How one character is written between quotes. -/
def encodeChar
    (c : Char) :
    List Char :=
  if c = '"' then ['\\', '"']
  else if c = '\\' then ['\\', '\\']
  else if c = '\n' then ['\\', 'n']
  else if c = '\t' then ['\\', 't']
  else if c = '\r' then ['\\', 'r']
  else if c.toNat < 0x20 then '\\' :: 'u' :: Hex.fourDigits c.toNat
  else [c]

/-- The text between the quotes. -/
def encode
    (s : List Char) :
    List Char :=
  s.flatMap encodeChar

/-- A string in its quotes. -/
def render
    (s : String) :
    String :=
  String.ofList ('"' :: encode s.toList ++ ['"'])

/-- The character of a code point; surrogates have none. -/
def charOfCode?
    (n : Nat) :
    Option Char :=
  if n.isValidChar then some (Char.ofNat n) else none

/-- The character for the four characters after the letter `u`. -/
def charOfEscape?
    (code : List Char) :
    Option Char :=
  if code.length = 4 then (Hex.valueOf? code).bind charOfCode? else none

/-- The character for a letter after a backslash. -/
def charOfLetter?
    (c : Char) :
    Option Char :=
  if c = '"' then some '"'
  else if c = '\\' then some '\\'
  else if c = '\'' then some '\''
  else if c = 'n' then some '\n'
  else if c = 't' then some '\t'
  else if c = 'r' then some '\r'
  else none

/-- Undoes the escapes; the first bad one is reported. -/
def decode : List Char → Except EscapeError (List Char)
  | [] => .ok []
  | c :: rest =>
      if c ≠ '\\' then
        (decode rest).map (c :: ·)
      else
        match rest with
        | [] => .error .dangling
        | d :: more =>
            if d = 'u' then
              match charOfEscape? (more.take 4) with
              | some e => (decode (more.drop 4)).map (e :: ·)
              | none => .error (.badCode (more.take 4))
            else
              match charOfLetter? d with
              | some e => (decode more).map (e :: ·)
              | none => .error (.unknownLetter d)
termination_by cs => cs.length
decreasing_by
  all_goals
    simp only [List.length_cons, List.length_drop]
    omega

/-- A plain character stands for itself. -/
theorem decode_cons_plain
    {c : Char}
    (h : c ≠ '\\')
    (rest : List Char) :
    decode (c :: rest) = (decode rest).map (c :: ·) := by
  rw [decode.eq_def]
  simp [h]

/-- A letter escape stands for its character. -/
theorem decode_cons_letter
    {d e : Char}
    (hu : d ≠ 'u')
    (h : charOfLetter? d = some e)
    (rest : List Char) :
    decode ('\\' :: d :: rest) = (decode rest).map (e :: ·) := by
  rw [decode]
  simp [hu, h]

/-- A code escape stands for its character. -/
theorem decode_cons_code
    {code : List Char}
    {e : Char}
    (hlen : code.length = 4)
    (h : charOfEscape? code = some e)
    (rest : List Char) :
    decode ('\\' :: 'u' :: (code ++ rest)) = (decode rest).map (e :: ·) := by
  rw [decode]
  simp [← hlen, h]

/-- A control character is read back from its code. -/
theorem charOfEscape_fourDigits
    {c : Char}
    (h : c.toNat < 0x20) :
    charOfEscape? (Hex.fourDigits c.toNat) = some c := by
  have hlen : (Hex.fourDigits c.toNat).length = 4 := rfl
  have hvalid : c.toNat.isValidChar := c.valid
  rw [charOfEscape?, if_pos hlen, Hex.valueOf?_fourDigits (by omega)]
  simp [charOfCode?, hvalid, Char.ofNat_toNat]

/-- The written form of one character is read back. -/
theorem decode_encodeChar_append
    (c : Char)
    (rest : List Char) :
    decode (encodeChar c ++ rest) = (decode rest).map (c :: ·) := by
  unfold encodeChar
  split
  · rename_i h
    subst h
    exact decode_cons_letter (by decide) rfl rest
  split
  · rename_i h
    subst h
    exact decode_cons_letter (by decide) rfl rest
  split
  · rename_i h
    subst h
    exact decode_cons_letter (by decide) rfl rest
  split
  · rename_i h
    subst h
    exact decode_cons_letter (by decide) rfl rest
  split
  · rename_i h
    subst h
    exact decode_cons_letter (by decide) rfl rest
  split
  · rename_i h
    exact decode_cons_code rfl (charOfEscape_fourDigits h) rest
  · rename_i hback _ _ _ _
    exact decode_cons_plain hback rest

/-- Decoding what was encoded gives the string back. -/
theorem decode_encode
    (s : List Char) :
    decode (encode s) = .ok s := by
  induction s with
  | nil => rw [encode, List.flatMap_nil, decode]
  | cons c rest ih =>
    have ih : decode (rest.flatMap encodeChar) = .ok rest := ih
    rw [encode, List.flatMap_cons, decode_encodeChar_append, ih]
    rfl

end Quoted
end Text
end SlotFlow
