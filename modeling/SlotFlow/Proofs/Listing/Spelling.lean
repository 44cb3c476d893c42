import SlotFlow.Listing.Token
import SlotFlow.Text.Quoted

/-!
# Spelled tokens

When a text is cut into the tokens that it was put together from.

Main definitions:

* `OnOneLine`: a text without line ends;
* `Spelled`: a line is a row of longest lexemes with blanks between them;
* `Breaks`: every word and every number ends before the text;
* `IsWordText`, `IsDigits`, `IsDecimal`: the texts of words and of plain numbers.

Main statements:

* `tokenize_of_spelled`: cutting gives the tokens that are spelled;
* `scan_word`, `scan_int`, `scan_long`, `scan_decimal`, `scan_quoted`: each form is the
  longest lexeme before a break.
-/

namespace SlotFlow
namespace Listing

/-- A text that no line end cuts and whose last character none takes along. -/
def OnOneLine
    (cs : List Char) :
    Prop :=
  ∀ c ∈ cs, c ≠ '\n' ∧ c ≠ '\r'

/-- A line spells tokens: each is the longest lexeme where it stands. -/
inductive Spelled : List Token → List Char → Prop
  | nil :
      Spelled [] []
  | space
      {ts : List Token}
      {cs : List Char}
      (h : Spelled ts cs) :
      Spelled ts (' ' :: cs)
  | lexeme
      {kind : TokenKind}
      {text cs : List Char}
      {ts : List Token}
      (hscan : scan (text ++ cs) = .lexeme kind text cs)
      (hline : OnOneLine text)
      (h : Spelled ts cs) :
      Spelled (⟨kind, String.ofList text⟩ :: ts) (text ++ cs)

theorem OnOneLine.append
    {cs ds : List Char}
    (hcs : OnOneLine cs)
    (hds : OnOneLine ds) :
    OnOneLine (cs ++ ds) := by
  intro c hc
  rcases List.mem_append.1 hc with hc | hc
  · exact hcs c hc
  · exact hds c hc

/-- A line that spells tokens has no line end inside. -/
theorem Spelled.onOneLine
    {ts : List Token}
    {cs : List Char}
    (h : Spelled ts cs) :
    OnOneLine cs := by
  induction h with
  | nil =>
      intro c hc
      cases hc
  | space _ ih =>
      have hspace : OnOneLine [' '] := by
        simp [OnOneLine]
      exact hspace.append ih
  | lexeme _ hline _ ih =>
      exact hline.append ih

theorem scan_blank
    {c : Char}
    (hblank : isBlank c = true)
    (cs : List Char) :
    scan (c :: cs) = .stuck [c] := by
  simp only [isBlank, Bool.or_eq_true, decide_eq_true_eq] at hblank
  rcases hblank with (rfl | rfl) | rfl <;> rfl

theorem tokenize_of_done
    {cs : List Char}
    (h : scan (cs.dropWhile isBlank) = .done) :
    tokenize cs = .ok [] := by
  rw [tokenize]
  split <;> simp_all

theorem tokenize_of_lexeme
    {cs text rest : List Char}
    {kind : TokenKind}
    (h : scan (cs.dropWhile isBlank) = .lexeme kind text rest) :
    tokenize cs = (tokenize rest).map (⟨kind, String.ofList text⟩ :: ·) := by
  rw [tokenize]
  split <;> simp_all

theorem tokenize_of_stuck
    {cs text : List Char}
    (h : scan (cs.dropWhile isBlank) = .stuck text) :
    tokenize cs = .error (String.ofList text) := by
  rw [tokenize]
  split <;> simp_all

theorem tokenize_blank
    {c : Char}
    (hblank : isBlank c = true)
    (cs : List Char) :
    tokenize (c :: cs) = tokenize cs := by
  have hdrop : (c :: cs).dropWhile isBlank = cs.dropWhile isBlank := by
    rw [List.dropWhile_cons_of_pos hblank]
  cases hscan : scan (cs.dropWhile isBlank) with
  | done =>
      rw [tokenize_of_done hscan]
      exact tokenize_of_done (hdrop ▸ hscan)
  | lexeme kind text rest =>
      rw [tokenize_of_lexeme hscan]
      exact tokenize_of_lexeme (hdrop ▸ hscan)
  | stuck text =>
      rw [tokenize_of_stuck hscan]
      exact tokenize_of_stuck (hdrop ▸ hscan)

/-- A text that starts with a lexeme does not start with a blank. -/
theorem dropWhile_of_scan
    {cs text rest : List Char}
    {kind : TokenKind}
    (h : scan cs = .lexeme kind text rest) :
    cs.dropWhile isBlank = cs := by
  cases cs with
  | nil =>
      rfl
  | cons c tail =>
      apply List.dropWhile_cons_of_neg
      intro hblank
      rw [scan_blank hblank] at h
      cases h

/-- Cutting gives the tokens that are spelled. -/
theorem tokenize_of_spelled
    {ts : List Token}
    {cs : List Char}
    (h : Spelled ts cs) :
    tokenize cs = .ok ts := by
  induction h with
  | nil =>
      exact tokenize_of_done rfl
  | space _ ih =>
      rw [tokenize_blank rfl, ih]
  | @lexeme kind text cs ts hscan _ _ ih =>
      have hfirst :
          scan ((text ++ cs).dropWhile isBlank) = .lexeme kind text cs := by
        rw [dropWhile_of_scan hscan]
        exact hscan
      rw [tokenize_of_lexeme hfirst, ih]
      rfl

/-- Characters at which every word and every number ends. -/
def isBreak
    (c : Char) :
    Bool :=
  isBlank c || (markKind? c).isSome || c = '#'

/-- A text before which every word and every number ends. -/
def Breaks
    (cs : List Char) :
    Prop :=
  ∀ c ∈ cs.head?, isBreak c = true

theorem breaks_nil :
    Breaks [] := by
  simp [Breaks]

theorem breaks_cons
    {c : Char}
    (h : isBreak c = true)
    (cs : List Char) :
    Breaks (c :: cs) := by
  simpa [Breaks] using h

theorem isBreak_cases
    {c : Char}
    (h : isBreak c = true) :
    c = ' ' ∨ c = '\t' ∨ c = '\r' ∨ c = '\x7b' ∨ c = '\x7d' ∨ c = ',' ∨ c = ':' ∨ c = '#' := by
  simp only [isBreak, isBlank, Bool.or_eq_true, decide_eq_true_eq] at h
  rcases h with ((((h | h) | h) | h)) | h
  · simp [h]
  · simp [h]
  · simp [h]
  · unfold markKind? at h
    split at h <;> simp_all
  · simp [h]

/-- A row of characters of a class ends where one of another class follows. -/
theorem takeWhile_append_of_break
    {p : Char → Bool}
    {cs rest : List Char}
    (hcs : ∀ c ∈ cs, p c = true)
    (hrest : ∀ c ∈ rest.head?, p c = false) :
    (cs ++ rest).takeWhile p = cs ∧ (cs ++ rest).dropWhile p = rest := by
  rw [List.takeWhile_append_of_pos hcs, List.dropWhile_append_of_pos hcs]
  cases rest with
  | nil =>
      simp
  | cons d tail =>
      have hd : p d = false := hrest d rfl
      simp [hd]

theorem isWordPart_of_isBreak
    {c : Char}
    (h : isBreak c = true) :
    isWordPart c = false := by
  rcases isBreak_cases h with rfl | rfl | rfl | rfl | rfl | rfl | rfl | rfl <;> rfl

theorem isDigit_of_isBreak
    {c : Char}
    (h : isBreak c = true) :
    c.isDigit = false := by
  rcases isBreak_cases h with rfl | rfl | rfl | rfl | rfl | rfl | rfl | rfl <;> rfl

/-- The text of a word. -/
def IsWordText
    (cs : List Char) :
    Prop :=
  cs.head?.any isWordStart = true ∧ ∀ c ∈ cs, isWordPart c = true

theorem IsWordText.onOneLine
    {cs : List Char}
    (h : IsWordText cs) :
    OnOneLine cs := by
  intro c hc
  have hpart := h.2 c hc
  constructor <;> rintro rfl <;> cases hpart

theorem onOneLine_of_isWordPart
    {c : Char}
    (h : isWordPart c = true) :
    OnOneLine [c] := by
  intro d hd
  rw [List.mem_singleton.1 hd]
  constructor <;> rintro rfl <;> cases h

/-- What starts a word starts nothing else. -/
theorem scan_wordStart
    {c : Char}
    (h : isWordStart c = true)
    (cs : List Char) :
    scan (c :: cs) = .lexeme .word (c :: cs.takeWhile isWordPart) (cs.dropWhile isWordPart) := by
  have hhash : c ≠ '#' := by
    rintro rfl
    cases h
  have hquote : c ≠ '"' := by
    rintro rfl
    cases h
  have hminus : c ≠ '-' := by
    rintro rfl
    cases h
  have hmark : markKind? c = none := by
    unfold markKind?
    split
    · cases h
    · cases h
    · cases h
    · cases h
    · rfl
  have hdigit : c.isDigit = false := by
    simp only [isWordStart, Bool.or_eq_true, decide_eq_true_eq] at h
    rcases h with ((((h | rfl) | rfl) | rfl) | rfl) | rfl
    · delta Char.isAlpha Char.isUpper Char.isLower at h
      delta Char.isDigit
      grind
    all_goals rfl
  simp [scan, hhash, hquote, hminus, hmark, hdigit, h]

/-- A word is the longest lexeme before a break. -/
theorem scan_word
    {cs rest : List Char}
    (h : IsWordText cs)
    (hrest : Breaks rest) :
    scan (cs ++ rest) = .lexeme .word cs rest := by
  obtain ⟨hstart, hpart⟩ := h
  cases cs with
  | nil =>
      cases hstart
  | cons c tail =>
      have htail : ∀ d ∈ tail, isWordPart d = true := by
        intro d hd
        exact hpart d (List.mem_cons_of_mem c hd)
      have hspan :=
        takeWhile_append_of_break htail
          (fun d hd => isWordPart_of_isBreak (hrest d hd))
      rw [List.cons_append, scan_wordStart hstart, hspan.1, hspan.2]

/-- Digits, at least one. -/
def IsDigits
    (cs : List Char) :
    Prop :=
  cs ≠ [] ∧ ∀ c ∈ cs, c.isDigit = true

/-- Digits, perhaps with a point and more digits behind it. -/
inductive IsDecimal : List Char → Prop
  | whole
      {ds : List Char}
      (h : IsDigits ds) :
      IsDecimal ds
  | pointed
      {ds es : List Char}
      (hds : IsDigits ds)
      (hes : IsDigits es) :
      IsDecimal (ds ++ '.' :: es)

/-- The text of a sign that a number may have. -/
def IsSign
    (cs : List Char) :
    Prop :=
  cs = [] ∨ cs = ['-']

theorem IsDigits.onOneLine
    {cs : List Char}
    (h : IsDigits cs) :
    OnOneLine cs := by
  intro c hc
  have hdigit := h.2 c hc
  constructor <;> rintro rfl <;> cases hdigit

theorem IsDecimal.onOneLine
    {cs : List Char}
    (h : IsDecimal cs) :
    OnOneLine cs := by
  cases h with
  | whole hds =>
      exact hds.onOneLine
  | pointed hds hes =>
      have hpoint : OnOneLine ['.'] := by
        simp [OnOneLine]
      exact hds.onOneLine.append (hpoint.append hes.onOneLine)

theorem IsSign.onOneLine
    {cs : List Char}
    (h : IsSign cs) :
    OnOneLine cs := by
  rcases h with rfl | rfl <;> simp [OnOneLine]

/-- Digits are split off where no digit follows. -/
theorem spanDigits_of_isDigits
    {ds rest : List Char}
    (h : IsDigits ds)
    (hrest : ∀ c ∈ rest.head?, c.isDigit = false) :
    spanDigits (ds ++ rest) = (ds, rest) := by
  obtain ⟨htake, hdrop⟩ := takeWhile_append_of_break h.2 hrest
  rw [spanDigits, htake, hdrop]

theorem spanFraction_of_ne_point
    {cs : List Char}
    (h : ∀ c ∈ cs.head?, c ≠ '.') :
    spanFraction cs = ([], cs) := by
  cases cs with
  | nil =>
      rfl
  | cons c tail =>
      have hc : c ≠ '.' := h c rfl
      unfold spanFraction
      split
      · simp_all
      · rfl

/-- A point with digits behind it is split off. -/
theorem spanFraction_of_isDigits
    {ds rest : List Char}
    (h : IsDigits ds)
    (hrest : ∀ c ∈ rest.head?, c.isDigit = false) :
    spanFraction ('.' :: (ds ++ rest)) = ('.' :: ds, rest) := by
  have hempty : ds.isEmpty = false := by
    simpa using h.1
  simp [spanFraction, spanDigits_of_isDigits h hrest, hempty]

theorem spanExponent_of_ne_letter
    {cs : List Char}
    (h : ∀ c ∈ cs.head?, c ≠ 'e' ∧ c ≠ 'E') :
    spanExponent cs = ([], cs) := by
  cases cs with
  | nil =>
      rfl
  | cons c tail =>
      have hc := h c rfl
      simp [spanExponent, hc.1, hc.2]

theorem spanNumber_int
    {ds rest : List Char}
    (h : IsDigits ds)
    (hrest : Breaks rest) :
    spanNumber (ds ++ rest) = (.int, ds, rest) := by
  have hdigit : ∀ c ∈ rest.head?, c.isDigit = false := by
    intro c hc
    exact isDigit_of_isBreak (hrest c hc)
  have hpoint : ∀ c ∈ rest.head?, c ≠ '.' := by
    rintro c hc rfl
    cases hrest _ hc
  have hletter : ∀ c ∈ rest.head?, c ≠ 'e' ∧ c ≠ 'E' := by
    intro c hc
    constructor <;> rintro rfl <;> cases hrest _ hc
  have hformat : spanFormat false true rest = (.int, [], rest) := by
    cases rest with
    | nil =>
        rfl
    | cons c tail =>
        rcases isBreak_cases (hrest c rfl) with
          rfl | rfl | rfl | rfl | rfl | rfl | rfl | rfl <;> rfl
  simp [spanNumber, spanDigits_of_isDigits h hdigit, spanFraction_of_ne_point hpoint,
    spanExponent_of_ne_letter hletter, hformat]

theorem spanNumber_long
    {ds : List Char}
    (h : IsDigits ds)
    (rest : List Char) :
    spanNumber (ds ++ 'L' :: rest) = (.long, ds ++ ['L'], rest) := by
  have hspan : spanDigits (ds ++ 'L' :: rest) = (ds, 'L' :: rest) :=
    spanDigits_of_isDigits h (by simp)
  simp [spanNumber, hspan, spanFraction, spanExponent, spanFormat]

/-- The letter that decides that a decimal is a float or a double. -/
def decimalLetter : TokenKind → Option Char
  | .float => some 'f'
  | .double => some 'd'
  | _ => none

/-- A decimal with the letter of its format behind it is a float or a double. -/
theorem spanNumber_decimal
    {ds : List Char}
    {kind : TokenKind}
    {letter : Char}
    (h : IsDecimal ds)
    (hletter : decimalLetter kind = some letter)
    (rest : List Char) :
    spanNumber (ds ++ letter :: rest) = (kind, ds ++ [letter], rest) := by
  have hcases : (kind = .float ∧ letter = 'f') ∨ (kind = .double ∧ letter = 'd') := by
    cases kind <;> cases hletter <;> simp
  cases h with
  | whole hds =>
      have hspan : spanDigits (ds ++ letter :: rest) = (ds, letter :: rest) := by
        apply spanDigits_of_isDigits hds
        rcases hcases with ⟨rfl, rfl⟩ | ⟨rfl, rfl⟩ <;> simp
      rcases hcases with ⟨rfl, rfl⟩ | ⟨rfl, rfl⟩ <;>
        simp [spanNumber, hspan, spanFraction, spanExponent, spanFormat]
  | @pointed ds es hds hes =>
      have hwhole :
          spanDigits (ds ++ '.' :: (es ++ letter :: rest)) =
            (ds, '.' :: (es ++ letter :: rest)) :=
        spanDigits_of_isDigits hds (by simp)
      have hplaces :
          spanFraction ('.' :: (es ++ letter :: rest)) = ('.' :: es, letter :: rest) := by
        apply spanFraction_of_isDigits hes
        rcases hcases with ⟨rfl, rfl⟩ | ⟨rfl, rfl⟩ <;> simp
      rcases hcases with ⟨rfl, rfl⟩ | ⟨rfl, rfl⟩ <;>
        simp [spanNumber, hwhole, hplaces, spanExponent, spanFormat]

/-- What starts with a digit, after a minus sign or not, is a number. -/
theorem scan_signed
    {sign cs text rest : List Char}
    {kind : TokenKind}
    (hsign : IsSign sign)
    (hdigit : cs.head?.any Char.isDigit = true)
    (h : spanNumber cs = (kind, text, rest)) :
    scan (sign ++ cs) = .lexeme kind (sign ++ text) rest := by
  cases cs with
  | nil =>
      cases hdigit
  | cons c tail =>
      have hdigit : c.isDigit = true := hdigit
      rcases hsign with rfl | rfl
      · have hhash : c ≠ '#' := by
          rintro rfl
          cases hdigit
        have hquote : c ≠ '"' := by
          rintro rfl
          cases hdigit
        have hminus : c ≠ '-' := by
          rintro rfl
          cases hdigit
        have hmark : markKind? c = none := by
          unfold markKind?
          split
          · cases hdigit
          · cases hdigit
          · cases hdigit
          · cases hdigit
          · rfl
        simp [scan, hhash, hquote, hminus, hmark, hdigit, h]
      · simp [scan, markKind?, spanDigits, hdigit, h]

theorem IsDigits.head
    {ds : List Char}
    (h : IsDigits ds)
    (rest : List Char) :
    (ds ++ rest).head?.any Char.isDigit = true := by
  cases ds with
  | nil =>
      exact absurd rfl h.1
  | cons c tail =>
      exact h.2 c (List.mem_cons_self)

/-- An integer is the longest lexeme before a break. -/
theorem scan_int
    {sign ds rest : List Char}
    (hsign : IsSign sign)
    (h : IsDigits ds)
    (hrest : Breaks rest) :
    scan (sign ++ ds ++ rest) = .lexeme .int (sign ++ ds) rest := by
  rw [List.append_assoc]
  exact scan_signed hsign (h.head rest) (spanNumber_int h hrest)

/-- A long is the longest lexeme, whatever follows. -/
theorem scan_long
    {sign ds : List Char}
    (hsign : IsSign sign)
    (h : IsDigits ds)
    (rest : List Char) :
    scan (sign ++ ds ++ 'L' :: rest) = .lexeme .long (sign ++ (ds ++ ['L'])) rest := by
  rw [List.append_assoc]
  exact scan_signed hsign (h.head _) (spanNumber_long h rest)

/-- A float or a double with its letter is the longest lexeme, whatever follows. -/
theorem scan_decimal
    {sign ds : List Char}
    {kind : TokenKind}
    {letter : Char}
    (hsign : IsSign sign)
    (h : IsDecimal ds)
    (hletter : decimalLetter kind = some letter)
    (rest : List Char) :
    scan (sign ++ ds ++ letter :: rest) = .lexeme kind (sign ++ (ds ++ [letter])) rest := by
  rw [List.append_assoc]
  apply scan_signed hsign ?_ (spanNumber_decimal h hletter rest)
  cases h with
  | whole hds =>
      exact hds.head _
  | pointed hds hes =>
      rw [List.append_assoc]
      exact hds.head _

/-- A mark is a lexeme of its own. -/
theorem scan_mark
    {c : Char}
    {kind : TokenKind}
    (h : markKind? c = some kind)
    (rest : List Char) :
    scan (c :: rest) = .lexeme kind [c] rest := by
  have hhash : c ≠ '#' := by
    rintro rfl
    cases h
  simp [scan, hhash, h]

/-- A minus sign before a word is a lexeme of its own. -/
theorem scan_minus
    {c : Char}
    (h : c.isDigit = false)
    (rest : List Char) :
    scan ('-' :: c :: rest) = .lexeme .minus ['-'] (c :: rest) := by
  simp [scan, markKind?, spanDigits, h]

theorem spanQuoted_plain
    {c : Char}
    (hquote : c ≠ '"')
    (hback : c ≠ '\\')
    (cs : List Char) :
    spanQuoted (c :: cs) = (c :: (spanQuoted cs).1, (spanQuoted cs).2) := by
  rw [spanQuoted.eq_def]
  simp [hquote, hback]

theorem spanQuoted_escape
    (d : Char)
    (cs : List Char) :
    spanQuoted ('\\' :: d :: cs) = ('\\' :: d :: (spanQuoted cs).1, (spanQuoted cs).2) := by
  rw [spanQuoted.eq_def]
  simp

theorem hexDigit_plain
    {n : Nat}
    (hn : n < 16) :
    Text.Hex.digitChar n ≠ '"' ∧ Text.Hex.digitChar n ≠ '\\' := by
  have h :
      ∀ m : Fin 16,
        Text.Hex.digitChar m.val ≠ '"' ∧ Text.Hex.digitChar m.val ≠ '\\' := by
    decide
  exact h ⟨n, hn⟩

theorem spanQuoted_fourDigits
    (n : Nat)
    (cs : List Char) :
    spanQuoted (Text.Hex.fourDigits n ++ cs) =
      (Text.Hex.fourDigits n ++ (spanQuoted cs).1, (spanQuoted cs).2) := by
  have hplain (k : Nat) :
      Text.Hex.digitChar (k % 16) ≠ '"' ∧ Text.Hex.digitChar (k % 16) ≠ '\\' :=
    hexDigit_plain (Nat.mod_lt k (by decide))
  simp only [Text.Hex.fourDigits, List.cons_append, List.nil_append]
  rw [spanQuoted_plain (hplain _).1 (hplain _).2, spanQuoted_plain (hplain _).1 (hplain _).2,
    spanQuoted_plain (hplain _).1 (hplain _).2, spanQuoted_plain (hplain _).1 (hplain _).2]

/-- The written form of a character stays inside its quotes. -/
theorem spanQuoted_encodeChar
    (c : Char)
    (cs : List Char) :
    spanQuoted (Text.Quoted.encodeChar c ++ cs) =
      (Text.Quoted.encodeChar c ++ (spanQuoted cs).1, (spanQuoted cs).2) := by
  unfold Text.Quoted.encodeChar
  split
  · exact spanQuoted_escape '"' cs
  split
  · exact spanQuoted_escape '\\' cs
  split
  · exact spanQuoted_escape 'n' cs
  split
  · exact spanQuoted_escape 't' cs
  split
  · exact spanQuoted_escape 'r' cs
  split
  · simp only [List.cons_append]
    rw [spanQuoted_escape, spanQuoted_fourDigits]
  · rename_i hquote hback _ _ _ _
    exact spanQuoted_plain hquote hback cs

/-- The text between quotes ends at the closing quote. -/
theorem spanQuoted_encode
    (s rest : List Char) :
    spanQuoted (Text.Quoted.encode s ++ '"' :: rest) = (Text.Quoted.encode s, some rest) := by
  induction s with
  | nil =>
      have hnil : Text.Quoted.encode [] = [] := rfl
      rw [hnil, List.nil_append, spanQuoted.eq_def]
      simp
  | cons c s ih =>
      have hcons :
          Text.Quoted.encode (c :: s) = Text.Quoted.encodeChar c ++ Text.Quoted.encode s :=
        List.flatMap_cons
      rw [hcons, List.append_assoc, spanQuoted_encodeChar, ih]

/-- A hexadecimal digit is no line end. -/
theorem hexDigit_ne_lineEnd
    {n : Nat}
    (hn : n < 16) :
    Text.Hex.digitChar n ≠ '\n' ∧ Text.Hex.digitChar n ≠ '\r' := by
  have h :
      ∀ m : Fin 16,
        Text.Hex.digitChar m.val ≠ '\n' ∧ Text.Hex.digitChar m.val ≠ '\r' := by
    decide
  exact h ⟨n, hn⟩

/-- Line ends are escaped between quotes. -/
theorem onOneLine_encodeChar
    (c : Char) :
    OnOneLine (Text.Quoted.encodeChar c) := by
  have hhex (k : Nat) :
      Text.Hex.digitChar (k % 16) ≠ '\n' ∧ Text.Hex.digitChar (k % 16) ≠ '\r' :=
    hexDigit_ne_lineEnd (Nat.mod_lt k (by decide))
  unfold Text.Quoted.encodeChar
  split
  · simp [OnOneLine]
  split
  · simp [OnOneLine]
  split
  · simp [OnOneLine]
  split
  · simp [OnOneLine]
  split
  · simp [OnOneLine]
  split
  · simp [OnOneLine, Text.Hex.fourDigits, hhex]
  · rename_i _ _ hfeed _ hreturn _
    simpa [OnOneLine] using And.intro hfeed hreturn

/-- A quoted string has no line end inside. -/
theorem onOneLine_quoted
    (s : String) :
    OnOneLine (Text.Quoted.render s).toList := by
  have hquote : OnOneLine ['"'] := by
    simp [OnOneLine]
  have hinside : OnOneLine (Text.Quoted.encode s.toList) := by
    intro c hc
    obtain ⟨d, _, hd⟩ := List.mem_flatMap.1 hc
    exact onOneLine_encodeChar d c hd
  rw [Text.Quoted.render, String.toList_ofList]
  exact (hquote.append hinside).append hquote

/-- A quoted string is the longest lexeme, whatever follows. -/
theorem scan_quoted
    (s : String)
    (rest : List Char) :
    scan ((Text.Quoted.render s).toList ++ rest) =
      .lexeme .quoted (Text.Quoted.render s).toList rest := by
  simp [Text.Quoted.render, scan, markKind?, spanQuoted_encode]

end Listing
end SlotFlow
