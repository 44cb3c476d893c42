/-!
# Tokens of a line

A line is cut into the longest lexemes; blanks and a comment from `#` on are skipped.

Main definitions:

* `Token`: a lexeme and its kind;
* `scan`: the first lexeme of a text that does not start with a blank;
* `tokenize`: all tokens of a line, or the first text that starts none.

Main statements:

* `scan_append`: a lexeme and what follows it make up the text;
* `scan_ne_nil`: no lexeme is empty, which is why cutting a line ends.

A number with an exponent but neither a point nor a letter for its format counts as
an integer; being none, it is refused where an integer is read.
-/

namespace SlotFlow
namespace Listing

/-- The kinds of lexemes. -/
inductive TokenKind where
  | openBrace
  | closeBrace
  | comma
  | colon
  | minus
  | quoted
  | long
  | float
  | double
  | int
  | word
deriving DecidableEq

/-- A lexeme and its kind. -/
structure Token where
  kind : TokenKind
  text : String
deriving DecidableEq

/-- Characters that separate lexemes. -/
def isBlank
    (c : Char) :
    Bool :=
  c = ' ' || c = '\t' || c = '\r'

/-- Characters that a word starts with. -/
def isWordStart
    (c : Char) :
    Bool :=
  c.isAlpha || c = '_' || c = '$' || c = '<' || c = '[' || c = '('

/-- Characters that a word goes on with. -/
def isWordPart
    (c : Char) :
    Bool :=
  isWordStart c || c.isDigit || c = '/' || c = '>' || c = ';' || c = ']' || c = ')' || c = '.'

/-- Splits off digits. -/
def spanDigits
    (cs : List Char) :
    List Char × List Char :=
  (cs.takeWhile Char.isDigit, cs.dropWhile Char.isDigit)

/-- Splits off a point with at least one digit behind it. -/
def spanFraction
    (cs : List Char) :
    List Char × List Char :=
  match cs with
  | '.' :: more =>
      let (ds, rest) := spanDigits more
      if ds.isEmpty then ([], cs) else ('.' :: ds, rest)
  | _ => ([], cs)

/-- Splits off one sign. -/
def spanSign
    (cs : List Char) :
    List Char × List Char :=
  match cs with
  | c :: rest => if c = '-' ∨ c = '+' then ([c], rest) else ([], cs)
  | [] => ([], [])

/-- Splits off an exponent: its letter, an optional sign and at least one digit. -/
def spanExponent
    (cs : List Char) :
    List Char × List Char :=
  match cs with
  | c :: more =>
      if c = 'e' ∨ c = 'E' then
        let (sign, tail) := spanSign more
        let (ds, rest) := spanDigits tail
        if ds.isEmpty then ([], cs) else (c :: (sign ++ ds), rest)
      else
        ([], cs)
  | [] => ([], [])

/--
Splits off the letter that names the format of a number and decides the kind; only
a plain row of digits can be a long.
-/
def spanFormat
    (fraction plain : Bool)
    (cs : List Char) :
    TokenKind × List Char × List Char :=
  let unmarked : TokenKind := if fraction then .double else .int
  match cs with
  | c :: rest =>
      if c = 'f' ∨ c = 'F' then (.float, [c], rest)
      else if c = 'd' ∨ c = 'D' then (.double, [c], rest)
      else if plain ∧ (c = 'l' ∨ c = 'L') then (.long, [c], rest)
      else (unmarked, [], cs)
  | [] => (unmarked, [], [])

/-- Splits off a number after its sign. -/
def spanNumber
    (cs : List Char) :
    TokenKind × List Char × List Char :=
  let (whole, afterWhole) := spanDigits cs
  let (fraction, afterFraction) := spanFraction afterWhole
  let (exponent, afterExponent) := spanExponent afterFraction
  let (kind, letter, rest) :=
    spanFormat (!fraction.isEmpty) (fraction.isEmpty && exponent.isEmpty) afterExponent
  (kind, whole ++ fraction ++ exponent ++ letter, rest)

/--
Splits off the inside of a quoted string, up to its closing quote. A backslash takes
the next character along. Without a closing quote the rest is `none`.
-/
def spanQuoted : List Char → List Char × Option (List Char)
  | [] => ([], none)
  | c :: cs =>
      if c = '"' then
        ([], some cs)
      else if c = '\\' then
        match cs with
        | [] => ([], none)
        | d :: rest =>
            let (inside, after) := spanQuoted rest
            (c :: d :: inside, after)
      else
        let (inside, after) := spanQuoted cs
        (c :: inside, after)

/-- The outcome of looking for one lexeme. -/
inductive Scan where
  /-- Nothing but a comment is left. -/
  | done
  | lexeme (kind : TokenKind) (text rest : List Char)
  /-- No lexeme starts here; the text is what was looked at in vain. -/
  | stuck (text : List Char)
deriving DecidableEq

/-- The kind of a lexeme that is one mark. -/
def markKind? : Char → Option TokenKind
  | '\x7b' => some .openBrace
  | '\x7d' => some .closeBrace
  | ',' => some .comma
  | ':' => some .colon
  | _ => none

/-- The first lexeme of a text that does not start with a blank. -/
def scan : List Char → Scan
  | [] => .done
  | c :: cs =>
      if c = '#' then
        .done
      else if let some kind := markKind? c then
        .lexeme kind [c] cs
      else if c = '"' then
        match spanQuoted cs with
        | (inside, some rest) => .lexeme .quoted (c :: inside ++ ['"']) rest
        | (inside, none) => .stuck (c :: inside)
      else if c = '-' then
        if (spanDigits cs).1.isEmpty then
          .lexeme .minus [c] cs
        else
          let (kind, text, rest) := spanNumber cs
          .lexeme kind (c :: text) rest
      else if c.isDigit then
        let (kind, text, rest) := spanNumber (c :: cs)
        .lexeme kind text rest
      else if isWordStart c then
        .lexeme .word (c :: cs.takeWhile isWordPart) (cs.dropWhile isWordPart)
      else
        .stuck [c]

/-- Digits and what follows make up the text. -/
theorem spanDigits_append
    (cs : List Char) :
    (spanDigits cs).1 ++ (spanDigits cs).2 = cs :=
  List.takeWhile_append_dropWhile

/-- A fraction and what follows make up the text. -/
theorem spanFraction_append
    (cs : List Char) :
    (spanFraction cs).1 ++ (spanFraction cs).2 = cs := by
  unfold spanFraction
  split
  · rename_i more
    simp only
    split
    · rfl
    · simp [spanDigits_append]
  · rfl

/-- A sign and what follows make up the text. -/
theorem spanSign_append
    (cs : List Char) :
    (spanSign cs).1 ++ (spanSign cs).2 = cs := by
  unfold spanSign
  split
  · split <;> rfl
  · rfl

/-- An exponent and what follows make up the text. -/
theorem spanExponent_append
    (cs : List Char) :
    (spanExponent cs).1 ++ (spanExponent cs).2 = cs := by
  unfold spanExponent
  split
  · rename_i c more
    split
    · simp only
      split
      · rfl
      · simp [spanDigits_append, spanSign_append]
    · rfl
  · rfl

/-- The letter of a format and what follows make up the text. -/
theorem spanFormat_append
    (fraction plain : Bool)
    (cs : List Char) :
    (spanFormat fraction plain cs).2.1 ++ (spanFormat fraction plain cs).2.2 = cs := by
  unfold spanFormat
  simp only
  split
  · split
    · rfl
    split
    · rfl
    split <;> rfl
  · rfl

/-- A number and what follows make up the text. -/
theorem spanNumber_append
    (cs : List Char) :
    (spanNumber cs).2.1 ++ (spanNumber cs).2.2 = cs := by
  simp only [spanNumber, List.append_assoc, spanFormat_append, spanExponent_append,
    spanFraction_append, spanDigits_append]

/-- The inside of a quoted string, its quote and what follows make up the text. -/
theorem spanQuoted_append
    {cs inside rest : List Char}
    (h : spanQuoted cs = (inside, some rest)) :
    inside ++ '"' :: rest = cs := by
  fun_induction spanQuoted cs generalizing inside with
  | case1 => simp at h
  | case2 => simp_all
  | case3 => simp at h
  | case4 =>
    simp only [Prod.mk.injEq] at h
    obtain ⟨rfl, rfl⟩ := h
    rename_i ih heq
    simp [ih heq]
  | case5 =>
    simp only [Prod.mk.injEq] at h
    obtain ⟨rfl, rfl⟩ := h
    rename_i ih heq
    simp [ih heq]

/-- A lexeme and what follows it make up the text. -/
theorem scan_append
    {cs text rest : List Char}
    {kind : TokenKind}
    (h : scan cs = .lexeme kind text rest) :
    text ++ rest = cs := by
  unfold scan at h
  split at h
  · simp at h
  · rename_i c tail
    split at h
    · simp at h
    split at h
    · cases h
      rfl
    split at h
    · rename_i hquote
      split at h
      · rename_i inside after hspan
        cases h
        simp [spanQuoted_append hspan]
      · simp at h
    split at h
    · split at h
      · cases h
        rfl
      · cases h
        exact congrArg (c :: ·) (spanNumber_append tail)
    split at h
    · cases h
      exact spanNumber_append (c :: tail)
    split at h
    · cases h
      simp [List.takeWhile_append_dropWhile]
    · simp at h

/-- A number that starts with a digit is not empty. -/
theorem spanNumber_ne_nil
    {c : Char}
    (h : c.isDigit = true)
    (cs : List Char) :
    (spanNumber (c :: cs)).2.1 ≠ [] := by
  have hwhole : (spanDigits (c :: cs)).1 = c :: (spanDigits cs).1 := by
    simp [spanDigits, h]
  simp only [spanNumber, hwhole]
  simp

/-- No lexeme is empty. -/
theorem scan_ne_nil
    {cs text rest : List Char}
    {kind : TokenKind}
    (h : scan cs = .lexeme kind text rest) :
    text ≠ [] := by
  unfold scan at h
  split at h
  · simp at h
  · rename_i c tail
    split at h
    · simp at h
    split at h
    · cases h
      simp
    split at h
    · split at h
      · cases h
        simp
      · simp at h
    split at h
    · split at h
      · cases h
        simp
      · cases h
        simp
    split at h
    · rename_i hdigit
      cases h
      exact spanNumber_ne_nil hdigit tail
    split at h
    · cases h
      simp
    · simp at h

/-- What follows a lexeme is shorter than the text. -/
theorem scan_length
    {cs text rest : List Char}
    {kind : TokenKind}
    (h : scan cs = .lexeme kind text rest) :
    rest.length < cs.length := by
  have hpos := List.length_pos_iff.2 (scan_ne_nil h)
  rw [← scan_append h, List.length_append]
  omega

/-- All tokens of a line, or the first text that starts none. -/
def tokenize
    (cs : List Char) :
    Except String (List Token) :=
  match _h : scan (cs.dropWhile isBlank) with
  | .done => .ok []
  | .stuck text => .error (String.ofList text)
  | .lexeme kind text rest => (tokenize rest).map (⟨kind, String.ofList text⟩ :: ·)
termination_by cs.length
decreasing_by
  have hscan := scan_length (by assumption)
  have hdrop := (List.dropWhile_suffix (l := cs) isBlank).length_le
  omega

end Listing
end SlotFlow
