import SlotFlow.Proofs.Listing.Spelling
import SlotFlow.Listing.Render

/-!
# Tokens of written records

A written record is cut into the tokens that its parts call for.

Main definitions:

* `IsWord`, `IsMember`: names that a listing can hold;
* `Record.WellFormed`: records that a listing can hold;
* `Record.tokens`: the tokens of a written record.

Main statements:

* `isWordText_of_isWord`: the text of a word has the characters of a word;
* `spelled_record`: a written record spells its tokens.
-/

namespace SlotFlow

open Text.Decimal (renderNat renderInt)

namespace Listing

/-- A text that is cut into one word, itself. -/
def IsWord
    (s : String) :
    Prop :=
  tokenize s.toList = .ok [⟨.word, s⟩]

/-- An owner and a name that a point can join and part again. -/
def IsMember
    (owner name : String) :
    Prop :=
  IsWord (owner ++ "." ++ name) ∧ owner ≠ "" ∧ name ≠ "" ∧ '.' ∉ name.toList

/-- The words that frame entries have of their own. -/
def frameWords : List String :=
  ["top", "int", "float", "long", "double", "null", "uninit_this", "uninit"]

end Listing

open Listing (IsWord IsMember)

/-- A constant whose names a listing can hold. -/
def Constant.WellFormed : Constant → Prop
  | classOf name => IsWord name
  | methodType descriptor => IsWord descriptor
  | methodHandle owner name descriptor => IsMember owner name ∧ IsWord descriptor
  | _ => True

/-- A frame entry whose name a listing can hold and does not take for another entry. -/
def VerificationType.WellFormed : VerificationType → Prop
  | object name => IsWord name ∧ name ∉ Listing.frameWords
  | _ => True

/-- A record whose opcode takes its operands and whose operands a listing can hold. -/
def Record.WellFormed
    (r : Record) :
    Prop :=
  r.misfit? = none ∧
    match r with
    | typed _ name => IsWord name
    | field _ owner name descriptor => IsMember owner name ∧ IsWord descriptor
    | method op owner name descriptor interface =>
        IsMember owner name ∧ IsWord descriptor ∧ (op = .invokeinterface → interface = true)
    | callSite name descriptor => IsWord name ∧ IsWord descriptor
    | load constant => constant.WellFormed
    | table low high _ targets =>
        low ≤ high ∧ (targets.length : Int) = high.toInt - low.toInt + 1
    | multiArray descriptor _ => IsWord descriptor
    | frame f => (∀ t ∈ f.locals, t.WellFormed) ∧ ∀ t ∈ f.stack, t.WellFormed
    | _ => True

namespace Listing

instance : DecidablePred IsWordText :=
  fun cs =>
    decidable_of_iff ((cs.head?.any isWordStart && cs.all isWordPart) = true)
      (by simp [IsWordText])

/-- Only the last kind of lexeme is a word. -/
theorem isWordText_of_scan
    {cs text rest : List Char}
    (h : scan cs = .lexeme .word text rest) :
    IsWordText text := by
  unfold scan at h
  split at h
  · cases h
  · rename_i c tail
    split at h
    · cases h
    split at h
    · rename_i kind hmark
      cases h
      unfold markKind? at hmark
      split at hmark <;> cases hmark
    split at h
    · split at h <;> cases h
    split at h
    · split at h
      · cases h
      · simp only [spanNumber, spanFormat] at h
        grind
    split at h
    · simp only [spanNumber, spanFormat] at h
      grind
    split at h
    · rename_i hstart
      cases h
      constructor
      · exact hstart
      · intro d hd
        rcases List.mem_cons.1 hd with rfl | hd
        · simp [isWordPart, hstart]
        · exact List.all_eq_true.1 List.all_takeWhile d hd
    · cases h

/-- The text of a word has the characters of a word. -/
theorem isWordText_of_isWord
    {s : String}
    (h : IsWord s) :
    IsWordText s.toList := by
  unfold IsWord at h
  cases hscan : scan (s.toList.dropWhile isBlank) with
  | done =>
      rw [tokenize_of_done hscan] at h
      cases h
  | stuck text =>
      rw [tokenize_of_stuck hscan] at h
      cases h
  | lexeme kind text rest =>
      rw [tokenize_of_lexeme hscan] at h
      cases hrest : tokenize rest with
      | error c =>
          rw [hrest] at h
          cases h
      | ok ts =>
          rw [hrest] at h
          injection h with h
          injection h with htoken _
          injection htoken with hkind htext
          subst hkind
          have hcs : text = s.toList := by
            rw [← htext, String.toList_ofList]
          rw [← hcs]
          exact isWordText_of_scan hscan

theorem isDigits_digits
    (n : Nat) :
    IsDigits (Text.Decimal.digits n) :=
  ⟨Text.Decimal.digits_ne_nil n, Text.Decimal.digits_isDigit n⟩

/-- A written integer is a sign and digits. -/
theorem exists_renderInt
    (i : Int) :
    ∃ sign ds,
      IsSign sign ∧ IsDigits ds ∧ (renderInt i).toList = sign ++ ds := by
  cases i with
  | ofNat n =>
      exact
        ⟨[], Text.Decimal.digits n, Or.inl rfl, isDigits_digits n,
          by simp [renderInt, renderNat]⟩
  | negSucc n =>
      exact
        ⟨['-'], Text.Decimal.digits (n + 1), Or.inr rfl, isDigits_digits (n + 1),
          by simp [renderInt, renderNat]⟩

theorem isDigits_append
    {ds es : List Char}
    (hds : IsDigits ds)
    (hes : ∀ c ∈ es, c.isDigit = true) :
    IsDigits (ds ++ es) := by
  constructor
  · simp [hds.1]
  · intro c hc
    rcases List.mem_append.1 hc with hc | hc
    · exact hds.2 c hc
    · exact hes c hc

/-- A positional decimal without a forced point is digits, perhaps with a point inside. -/
theorem isDecimal_positional
    (d : Number.Scaled) :
    IsDecimal (d.positional false).toList := by
  have hds := isDigits_digits d.digits
  have hzeros : ∀ k, ∀ c ∈ List.replicate k '0', c.isDigit = true := by
    intro k c hc
    rw [List.eq_of_mem_replicate hc]
    rfl
  unfold Number.Scaled.positional
  simp only
  split
  · rename_i k _
    simp only [Bool.false_eq_true, if_false, String.append_empty, String.toList_ofList]
    exact .whole (isDigits_append hds (hzeros k))
  · rename_i k _
    split
    · rename_i hplaces
      have hcut :
          0 < (Text.Decimal.digits d.digits).length - (k + 1) ∧
            (Text.Decimal.digits d.digits).length - (k + 1) <
              (Text.Decimal.digits d.digits).length := by
        omega
      have hwhole :
          IsDigits
            ((Text.Decimal.digits d.digits).take
              ((Text.Decimal.digits d.digits).length - (k + 1))) := by
        constructor
        · simp only [ne_eq, List.take_eq_nil_iff, not_or]
          exact ⟨by omega, hds.1⟩
        · intro c hc
          exact hds.2 c (List.mem_of_mem_take hc)
      have hfraction :
          IsDigits
            ((Text.Decimal.digits d.digits).drop
              ((Text.Decimal.digits d.digits).length - (k + 1))) := by
        constructor
        · simp only [ne_eq, List.drop_eq_nil_iff]
          omega
        · intro c hc
          exact hds.2 c (List.mem_of_mem_drop hc)
      simpa using IsDecimal.pointed hwhole hfraction
    · have hzero : IsDigits ['0'] := by
        constructor <;> simp
      have hfraction :
          IsDigits
            (List.replicate (k + 1 - (Text.Decimal.digits d.digits).length) '0' ++
              Text.Decimal.digits d.digits) := by
        constructor
        · simp [hds.1]
        · intro c hc
          rcases List.mem_append.1 hc with hc | hc
          · exact hzeros _ c hc
          · exact hds.2 c hc
      simpa using IsDecimal.pointed hzero hfraction

/-- The text of a finite float is a sign and digits, perhaps with a point inside. -/
theorem exists_renderFinite
    (f : Number.Format)
    (negative : Bool)
    (m : Nat)
    (q : Int) :
    ∃ sign ds,
      IsSign sign ∧ IsDecimal ds ∧
        (Number.Style.constant.render f (.finite negative m q)).toList = sign ++ ds := by
  have hmagnitude :
      Number.Style.constant.magnitude (Number.shortest f m q) =
        (Number.shortest f m q).positional false := rfl
  refine ⟨if negative then ['-'] else [], _, ?_, isDecimal_positional (Number.shortest f m q), ?_⟩
  · cases negative
    · exact Or.inl rfl
    · exact Or.inr rfl
  · cases negative <;> simp [Number.Style.render, hmagnitude]

/-- The token of a word. -/
def wordToken
    (s : String) :
    Token :=
  ⟨.word, s⟩

/-- The token of an integer. -/
def intToken
    (i : Int) :
    Token :=
  ⟨.int, renderInt i⟩

/-- The token of a member. -/
def memberToken
    (owner name : String) :
    Token :=
  wordToken (owner ++ "." ++ name)

/-- The token of a label. -/
def labelToken
    (l : Label) :
    Token :=
  wordToken l.render

/-- The token between a key and its label. -/
def colonToken : Token :=
  ⟨.colon, ":"⟩

/-- The tokens of a float, by kind of lexeme and letter of its format. -/
def floatTokens
    (r : Number.Reading)
    (f : Number.Format)
    (kind : TokenKind)
    (letter : String) :
    List Token :=
  match r with
  | .nan => [wordToken ("NaN" ++ letter)]
  | .infinite false => [wordToken ("Infinity" ++ letter)]
  | .infinite true => [⟨.minus, "-"⟩, wordToken ("Infinity" ++ letter)]
  | .finite _ _ _ => [⟨kind, Number.Style.constant.render f r ++ letter⟩]

end Listing

open Listing

/-- The tokens of a written constant. -/
def Constant.tokens : Constant → List Token
  | int value => [intToken value.toInt]
  | long value => [⟨.long, renderInt value.toInt ++ "L"⟩]
  | float value => floatTokens (Number.readSingle value) .single .float "f"
  | double value => floatTokens (Number.readDouble value) .double .double "d"
  | string text => [⟨.quoted, Text.Quoted.render text⟩]
  | classOf name => [wordToken "class", wordToken name]
  | methodType descriptor => [wordToken "methodtype", wordToken descriptor]
  | methodHandle owner name descriptor =>
      [wordToken "handle", memberToken owner name, wordToken descriptor]

/-- The tokens of a written frame entry. -/
def VerificationType.tokens : VerificationType → List Token
  | uninitialized l => [wordToken "uninit", colonToken, labelToken l]
  | type => [wordToken type.render]

/-- The tokens of frame entries up to the closing brace. -/
def VerificationType.entryTokens : List VerificationType → List Token
  | [] => [⟨.closeBrace, "\x7d"⟩]
  | [type] => type.tokens ++ [⟨.closeBrace, "\x7d"⟩]
  | type :: types => type.tokens ++ ⟨.comma, ","⟩ :: entryTokens types

/-- The tokens of frame entries between braces. -/
def VerificationType.listTokens
    (types : List VerificationType) :
    List Token :=
  ⟨.openBrace, "\x7b"⟩ :: entryTokens types

/-- The token of the operand of an integer instruction. -/
def Record.operandToken
    (op : Opcode)
    (operand : Int32) :
    Token :=
  match op with
  | .newarray =>
      match ArrayElement.ofCode? operand with
      | some element => wordToken element.keyword
      | none => intToken operand.toInt
  | _ => intToken operand.toInt

/-- The tokens of a written record. -/
def Record.tokens : Record → List Token
  | bare op => [wordToken op.mnemonic]
  | integer op operand => [wordToken op.mnemonic, operandToken op operand]
  | slot op index => [wordToken op.mnemonic, intToken index.toNat]
  | increment index delta => [wordToken "iinc", intToken index.toNat, intToken delta.toInt]
  | typed op name => [wordToken op.mnemonic, wordToken name]
  | field op owner name descriptor =>
      [wordToken op.mnemonic, memberToken owner name, wordToken descriptor]
  | method op owner name descriptor interface =>
      [wordToken op.mnemonic, memberToken owner name, wordToken descriptor] ++
        if interface && op ≠ .invokeinterface then [wordToken "itf"] else []
  | callSite name descriptor =>
      [wordToken "invokedynamic", wordToken name, wordToken descriptor]
  | jump op target => [wordToken op.mnemonic, labelToken target]
  | load constant => wordToken "ldc" :: constant.tokens
  | table low high fallback targets =>
      [wordToken "tableswitch", intToken low.toInt, intToken high.toInt, labelToken fallback] ++
        targets.map labelToken
  | lookup fallback cases =>
      [wordToken "lookupswitch", labelToken fallback] ++
        cases.flatMap fun (key, target) =>
          [intToken key.toInt, colonToken, labelToken target]
  | multiArray descriptor dimensions =>
      [wordToken "multianewarray", wordToken descriptor, intToken dimensions.toNat]
  | label l => [labelToken l, colonToken]
  | frame f =>
      [wordToken "frame", wordToken f.kind.keyword] ++
        VerificationType.listTokens f.locals ++ VerificationType.listTokens f.stack

namespace Listing

variable {ts : List Token} {cs : List Char}

/-- A word before a break. -/
theorem Spelled.word
    {s : String}
    (hs : IsWordText s.toList)
    (hcs : Breaks cs)
    (h : Spelled ts cs) :
    Spelled (wordToken s :: ts) (s.toList ++ cs) := by
  have hlexeme := Spelled.lexeme (scan_word hs hcs) hs.onOneLine h
  rwa [String.ofList_toList] at hlexeme

/-- An integer before a break. -/
theorem Spelled.int
    (i : Int)
    (hcs : Breaks cs)
    (h : Spelled ts cs) :
    Spelled (intToken i :: ts) ((renderInt i).toList ++ cs) := by
  obtain ⟨sign, ds, hsign, hds, htext⟩ := exists_renderInt i
  have hscan := scan_int hsign hds hcs
  have hline := hsign.onOneLine.append hds.onOneLine
  rw [← htext] at hscan hline
  have hlexeme := Spelled.lexeme hscan hline h
  rwa [String.ofList_toList] at hlexeme

theorem Spelled.mark
    {c : Char}
    {kind : TokenKind}
    {text : String}
    (hc : markKind? c = some kind)
    (htext : text.toList = [c])
    (h : Spelled ts cs) :
    Spelled (⟨kind, text⟩ :: ts) (c :: cs) := by
  have hscan : scan ([c] ++ cs) = .lexeme kind [c] cs := scan_mark hc cs
  have hline : OnOneLine [c] := by
    intro d hd
    rw [List.mem_singleton.1 hd]
    constructor <;> rintro rfl <;> cases hc
  have hlexeme := Spelled.lexeme hscan hline h
  have hlist : String.ofList [c] = text := by
    rw [← htext, String.ofList_toList]
  rw [hlist] at hlexeme
  exact hlexeme

theorem Spelled.colon
    (h : Spelled ts cs) :
    Spelled (colonToken :: ts) (':' :: cs) :=
  h.mark rfl (by simp)

theorem Spelled.comma
    (h : Spelled ts cs) :
    Spelled (⟨.comma, ","⟩ :: ts) (',' :: cs) :=
  h.mark rfl (by simp)

theorem isWordText_mnemonic
    (op : Opcode) :
    IsWordText op.mnemonic.toList := by
  have h : ∀ op ∈ Opcode.all, IsWordText op.mnemonic.toList := by
    decide +kernel
  exact h op (Opcode.mem_all op)

theorem isWordText_elementKeyword
    (e : ArrayElement) :
    IsWordText e.keyword.toList := by
  cases e <;> decide +kernel

theorem isWordText_frameKeyword
    (kind : FrameKind) :
    IsWordText kind.keyword.toList := by
  cases kind <;> decide +kernel

theorem isWordPart_of_isDigit
    {c : Char}
    (h : c.isDigit = true) :
    isWordPart c = true := by
  simp [isWordPart, h]

theorem isWordText_label
    (l : Label) :
    IsWordText l.render.toList := by
  have htext : l.render.toList = 'L' :: Text.Decimal.digits l.id.toNat := by
    simp [Label.render, renderNat]
  rw [htext]
  refine ⟨rfl, ?_⟩
  intro c hc
  rcases List.mem_cons.1 hc with rfl | hc
  · rfl
  · exact isWordPart_of_isDigit (Text.Decimal.digits_isDigit _ c hc)

/-- A label before a break. -/
theorem Spelled.label
    (l : Label)
    (hcs : Breaks cs)
    (h : Spelled ts cs) :
    Spelled (labelToken l :: ts) (l.render.toList ++ cs) :=
  Spelled.word (isWordText_label l) hcs h

/-- A natural number before a break. -/
theorem Spelled.nat
    (n : Nat)
    (hcs : Breaks cs)
    (h : Spelled ts cs) :
    Spelled (intToken n :: ts) ((renderNat n).toList ++ cs) :=
  Spelled.int n hcs h

theorem breaks_space
    (cs : List Char) :
    Breaks (' ' :: cs) :=
  breaks_cons rfl cs

/-- Words and their number at the end of a line. -/
theorem Spelled.wordAtEnd
    {s : String}
    (hs : IsWordText s.toList) :
    Spelled [wordToken s] s.toList := by
  have h := Spelled.word hs breaks_nil Spelled.nil
  rwa [List.append_nil] at h

/-- A float at the end of a line. -/
theorem spelled_float
    (r : Number.Reading)
    (f : Number.Format)
    {kind : TokenKind}
    (letter : Char)
    (hletter : decimalLetter kind = some letter)
    (hword : isWordPart letter = true) :
    Spelled (floatTokens r f kind (String.singleton letter))
      (r.renderConstant f (String.singleton letter)).toList := by
  have hname (start : String) (hstart : IsWordText start.toList) :
      IsWordText (start ++ String.singleton letter).toList := by
    refine ⟨?_, ?_⟩
    · have hhead := hstart.1
      cases hlist : start.toList with
      | nil =>
          rw [hlist] at hhead
          cases hhead
      | cons c tail =>
          rw [hlist] at hhead
          simpa [hlist] using hhead
    · intro c hc
      simp only [String.toList_append, String.toList_singleton, List.mem_append,
        List.mem_singleton] at hc
      rcases hc with hc | rfl
      · exact hstart.2 c hc
      · exact hword
  have hnan := hname "NaN" (by decide +kernel)
  have hinfinity := hname "Infinity" (by decide +kernel)
  cases r with
  | nan =>
      exact Spelled.wordAtEnd hnan
  | infinite negative =>
      cases negative with
      | false =>
          simpa [Number.Reading.renderConstant, floatTokens] using Spelled.wordAtEnd hinfinity
      | true =>
          have hminus :
              scan (['-'] ++ ("Infinity" ++ String.singleton letter).toList) =
                .lexeme .minus ['-'] ("Infinity" ++ String.singleton letter).toList := by
            simpa using scan_minus (c := 'I') rfl _
          have hline : OnOneLine ['-'] := by
            simp [OnOneLine]
          have h := Spelled.lexeme hminus hline (Spelled.wordAtEnd hinfinity)
          simpa [Number.Reading.renderConstant, floatTokens] using h
  | finite negative m q =>
      obtain ⟨sign, ds, hsign, hds, htext⟩ := exists_renderFinite f negative m q
      have hscan := scan_decimal hsign hds hletter []
      have hfull :
          (Number.Style.constant.render f (.finite negative m q) ++
              String.singleton letter).toList = sign ++ (ds ++ [letter]) := by
        simp [htext]
      have hsplit : sign ++ ds ++ [letter] = sign ++ (ds ++ [letter]) ++ [] := by
        simp
      have hline :=
        hsign.onOneLine.append (hds.onOneLine.append (onOneLine_of_isWordPart hword))
      rw [hsplit, ← hfull] at hscan
      rw [← hfull] at hline
      have h := Spelled.lexeme hscan hline Spelled.nil
      rw [String.ofList_toList, List.append_nil] at h
      exact h

theorem spelled_twoWords
    {s t : String}
    (hs : IsWordText s.toList)
    (ht : IsWordText t.toList) :
    Spelled [wordToken s, wordToken t] (s.toList ++ ' ' :: t.toList) :=
  Spelled.word hs (breaks_space _) (Spelled.wordAtEnd ht).space

theorem spelled_threeWords
    {s t u : String}
    (hs : IsWordText s.toList)
    (ht : IsWordText t.toList)
    (hu : IsWordText u.toList) :
    Spelled [wordToken s, wordToken t, wordToken u]
      (s.toList ++ ' ' :: (t.toList ++ ' ' :: u.toList)) :=
  Spelled.word hs (breaks_space _) (spelled_twoWords ht hu).space

theorem isWordText_member
    {owner name : String}
    (h : IsMember owner name) :
    IsWordText (owner ++ "." ++ name).toList :=
  isWordText_of_isWord h.1

/-- A written constant spells its tokens. -/
theorem spelled_constant
    {c : Constant}
    (h : c.WellFormed) :
    Spelled c.tokens c.render.toList := by
  cases c with
  | int value =>
      simpa [Constant.render, Constant.tokens] using
        Spelled.int value.toInt breaks_nil Spelled.nil
  | long value =>
      obtain ⟨sign, ds, hsign, hds, htext⟩ := exists_renderInt value.toInt
      have hscan := scan_long hsign hds []
      have hfull : (renderInt value.toInt ++ "L").toList = sign ++ (ds ++ ['L']) := by
        simp [htext]
      have hsplit : sign ++ ds ++ ['L'] = sign ++ (ds ++ ['L']) ++ [] := by
        simp
      have hletter : OnOneLine ['L'] := onOneLine_of_isWordPart rfl
      have hline := hsign.onOneLine.append (hds.onOneLine.append hletter)
      rw [hsplit, ← hfull] at hscan
      rw [← hfull] at hline
      have hspelled := Spelled.lexeme hscan hline Spelled.nil
      rwa [String.ofList_toList, List.append_nil] at hspelled
  | float value =>
      exact spelled_float (Number.readSingle value) .single 'f' rfl rfl
  | double value =>
      exact spelled_float (Number.readDouble value) .double 'd' rfl rfl
  | string text =>
      have hspelled :=
        Spelled.lexeme (scan_quoted text []) (onOneLine_quoted text) Spelled.nil
      rwa [String.ofList_toList, List.append_nil] at hspelled
  | classOf name =>
      have hname := isWordText_of_isWord h
      simpa [Constant.render, Constant.tokens] using
        spelled_twoWords (s := "class") (by decide +kernel) hname
  | methodType descriptor =>
      have hdescriptor := isWordText_of_isWord h
      simpa [Constant.render, Constant.tokens] using
        spelled_twoWords (s := "methodtype") (by decide +kernel) hdescriptor
  | methodHandle owner name descriptor =>
      have hmember := isWordText_member h.1
      have hdescriptor := isWordText_of_isWord h.2
      simpa [Constant.render, Constant.tokens, memberToken] using
        spelled_threeWords (s := "handle") (by decide +kernel) hmember hdescriptor

/-- A written frame entry before a break spells its tokens. -/
theorem spelled_verificationType
    {type : VerificationType}
    (hwf : type.WellFormed)
    (hcs : Breaks cs)
    (h : Spelled ts cs) :
    Spelled (type.tokens ++ ts) (type.render.toList ++ cs) := by
  cases type with
  | object name =>
      exact Spelled.word (isWordText_of_isWord hwf.1) hcs h
  | uninitialized l =>
      have hlabel := (Spelled.label l hcs h).colon
      have hword :=
        Spelled.word (s := "uninit") (by decide +kernel) (breaks_cons rfl _) hlabel
      simpa [VerificationType.render, VerificationType.tokens] using hword
  | top =>
      exact Spelled.word (by decide +kernel) hcs h
  | int =>
      exact Spelled.word (by decide +kernel) hcs h
  | float =>
      exact Spelled.word (by decide +kernel) hcs h
  | double =>
      exact Spelled.word (by decide +kernel) hcs h
  | long =>
      exact Spelled.word (by decide +kernel) hcs h
  | null =>
      exact Spelled.word (by decide +kernel) hcs h
  | uninitializedThis =>
      exact Spelled.word (by decide +kernel) hcs h

/-- Written frame entries and their closing brace spell their tokens. -/
theorem spelled_entries
    {types : List VerificationType}
    (hwf : ∀ type ∈ types, type.WellFormed)
    (h : Spelled ts cs) :
    Spelled (VerificationType.entryTokens types ++ ts)
      ((", ".intercalate (types.map VerificationType.render)).toList ++ '\x7d' :: cs) := by
  have hbrace : Spelled (⟨.closeBrace, "\x7d"⟩ :: ts) ('\x7d' :: cs) :=
    h.mark rfl (by simp)
  induction types with
  | nil =>
      exact hbrace
  | cons type types ih =>
      have htype := hwf type List.mem_cons_self
      have htypes : ∀ other ∈ types, other.WellFormed := by
        intro other hother
        exact hwf other (List.mem_cons_of_mem type hother)
      cases types with
      | nil =>
          have hlast := spelled_verificationType htype (breaks_cons rfl cs) hbrace
          simpa [VerificationType.entryTokens] using hlast
      | cons other types =>
          have hcomma := (ih htypes).space.comma
          have hfirst := spelled_verificationType htype (breaks_cons rfl _) hcomma
          simpa [VerificationType.entryTokens] using hfirst

/-- Written frame entries between braces spell their tokens. -/
theorem spelled_list
    {types : List VerificationType}
    (hwf : ∀ type ∈ types, type.WellFormed)
    (h : Spelled ts cs) :
    Spelled (VerificationType.listTokens types ++ ts)
      ((VerificationType.renderList types).toList ++ cs) := by
  have hbrace :
      Spelled (VerificationType.listTokens types ++ ts)
        ('\x7b' ::
          ((", ".intercalate (types.map VerificationType.render)).toList ++ '\x7d' :: cs)) :=
    (spelled_entries hwf h).mark rfl (by simp)
  simpa [VerificationType.renderList] using hbrace

/-- A row of texts that start with a blank is a break. -/
theorem breaks_join
    {α : Type}
    {f : α → String}
    (hf : ∀ a, (f a).toList.head? = some ' ')
    (as : List α) :
    Breaks (String.join (as.map f)).toList := by
  cases as with
  | nil =>
      exact breaks_nil
  | cons a as =>
      intro c hc
      simp only [List.map_cons, String.join_cons, String.toList_append, List.head?_append, hf,
        Option.some_or, Option.mem_some] at hc
      subst hc
      rfl

theorem breaks_labels
    (labels : List Label) :
    Breaks (String.join (labels.map fun l => " " ++ l.render)).toList :=
  breaks_join (by simp) labels

theorem breaks_cases
    (cases : List (Int32 × Label)) :
    Breaks
      (String.join (cases.map fun (key, target) =>
        " " ++ renderInt key.toInt ++ ":" ++ target.render)).toList :=
  breaks_join (by simp) cases

/-- Written labels at the end of a line spell their tokens. -/
theorem spelled_labels
    (labels : List Label) :
    Spelled (labels.map labelToken)
      (String.join (labels.map fun l => " " ++ l.render)).toList := by
  induction labels with
  | nil =>
      exact Spelled.nil
  | cons l labels ih =>
      have hbreak := breaks_labels labels
      have hfirst := (Spelled.label l hbreak ih).space
      simpa using hfirst

/-- Written cases at the end of a line spell their tokens. -/
theorem spelled_cases
    (cases : List (Int32 × Label)) :
    Spelled
      (cases.flatMap fun (key, target) =>
        [intToken key.toInt, colonToken, labelToken target])
      (String.join (cases.map fun (key, target) =>
        " " ++ renderInt key.toInt ++ ":" ++ target.render)).toList := by
  induction cases with
  | nil =>
      exact Spelled.nil
  | cons entry cases ih =>
      obtain ⟨key, target⟩ := entry
      have hbreak := breaks_cases cases
      have hcolon := (Spelled.label target hbreak ih).colon
      have hkey := (Spelled.int key.toInt (breaks_cons rfl _) hcolon).space
      simpa using hkey

/-- An operand that is no type code is written as a number. -/
theorem operand_of_ne
    {op : Opcode}
    (hop : op ≠ .newarray)
    (operand : Int32) :
    Record.operandToken op operand = intToken operand.toInt ∧
      Record.renderOperand op operand = renderInt operand.toInt := by
  constructor
  · unfold Record.operandToken
    split
    · exact absurd rfl hop
    · rfl
  · unfold Record.renderOperand
    split
    · exact absurd rfl hop
    · rfl

/-- A written operand of an integer instruction spells its token. -/
theorem spelled_operand
    (op : Opcode)
    (operand : Int32) :
    Spelled [Record.operandToken op operand] (Record.renderOperand op operand).toList := by
  have hint : Spelled [intToken operand.toInt] (renderInt operand.toInt).toList := by
    simpa using Spelled.int operand.toInt breaks_nil Spelled.nil
  by_cases hop : op = .newarray
  · subst hop
    cases hcode : ArrayElement.ofCode? operand with
    | none =>
        simpa [Record.operandToken, Record.renderOperand, hcode] using hint
    | some element =>
        simpa [Record.operandToken, Record.renderOperand, hcode] using
          Spelled.wordAtEnd (isWordText_elementKeyword element)
  · obtain ⟨htoken, htext⟩ := operand_of_ne hop operand
    rw [htoken, htext]
    exact hint

/-- A written record spells its tokens. -/
theorem spelled_record
    {r : Record}
    (h : r.WellFormed) :
    Spelled r.tokens r.render.toList := by
  obtain ⟨_, hoperands⟩ := h
  cases r with
  | bare op =>
      exact Spelled.wordAtEnd (isWordText_mnemonic op)
  | integer op operand =>
      have htext :
          (Record.integer op operand).render =
            op.mnemonic ++ " " ++ Record.renderOperand op operand := rfl
      have hoperand := spelled_operand op operand
      have hrecord :=
        Spelled.word (isWordText_mnemonic op) (breaks_space _) hoperand.space
      simpa [htext, Record.tokens] using hrecord
  | slot op index =>
      have htext :
          (Record.slot op index).render = op.mnemonic ++ " " ++ renderNat index.toNat := rfl
      have hindex := Spelled.nat index.toNat breaks_nil Spelled.nil
      have hrecord :=
        Spelled.word (isWordText_mnemonic op) (breaks_space _) hindex.space
      simpa [htext, Record.tokens] using hrecord
  | increment index delta =>
      have htext :
          (Record.increment index delta).render =
            "iinc " ++ renderNat index.toNat ++ " " ++ renderInt delta.toInt := rfl
      have hdelta := Spelled.int delta.toInt breaks_nil Spelled.nil
      have hindex := Spelled.nat index.toNat (breaks_space _) hdelta.space
      have hrecord :=
        Spelled.word (s := "iinc") (by decide +kernel) (breaks_space _) hindex.space
      simpa [htext, Record.tokens] using hrecord
  | typed op name =>
      have htext : (Record.typed op name).render = op.mnemonic ++ " " ++ name := rfl
      have hrecord := spelled_twoWords (isWordText_mnemonic op) (isWordText_of_isWord hoperands)
      simpa [htext, Record.tokens] using hrecord
  | field op owner name descriptor =>
      have htext :
          (Record.field op owner name descriptor).render =
            op.mnemonic ++ " " ++ owner ++ "." ++ name ++ " " ++ descriptor := rfl
      have hrecord :=
        spelled_threeWords (isWordText_mnemonic op) (isWordText_member hoperands.1)
          (isWordText_of_isWord hoperands.2)
      simpa [htext, Record.tokens, memberToken] using hrecord
  | method op owner name descriptor interface =>
      have htext :
          (Record.method op owner name descriptor interface).render =
            op.mnemonic ++ " " ++ owner ++ "." ++ name ++ " " ++ descriptor ++
              (if interface && op ≠ .invokeinterface then " itf" else "") := rfl
      obtain ⟨hmember, hdescriptor, _⟩ := hoperands
      have hmember := isWordText_member hmember
      have hdescriptor := isWordText_of_isWord hdescriptor
      by_cases hmark : interface = true ∧ ¬op = .invokeinterface
      · have hmarked :=
          Spelled.word hdescriptor (breaks_space _)
            (Spelled.wordAtEnd (s := "itf") (by decide +kernel)).space
        have hoperands := Spelled.word hmember (breaks_space _) hmarked.space
        have hrecord :=
          Spelled.word (isWordText_mnemonic op) (breaks_space _) hoperands.space
        rw [htext]
        simpa [Record.tokens, memberToken, hmark] using hrecord
      · have hrecord :=
          spelled_threeWords (isWordText_mnemonic op) hmember hdescriptor
        rw [htext]
        simpa [Record.tokens, memberToken, hmark] using hrecord
  | callSite name descriptor =>
      have htext :
          (Record.callSite name descriptor).render =
            "invokedynamic " ++ name ++ " " ++ descriptor := rfl
      have hrecord :=
        spelled_threeWords (s := "invokedynamic") (by decide +kernel)
          (isWordText_of_isWord hoperands.1) (isWordText_of_isWord hoperands.2)
      simpa [htext, Record.tokens] using hrecord
  | jump op target =>
      have htext : (Record.jump op target).render = op.mnemonic ++ " " ++ target.render := rfl
      have htarget := Spelled.label target breaks_nil Spelled.nil
      have hrecord :=
        Spelled.word (isWordText_mnemonic op) (breaks_space _) htarget.space
      simpa [htext, Record.tokens] using hrecord
  | load constant =>
      have htext : (Record.load constant).render = "ldc " ++ constant.render := rfl
      have hrecord :=
        Spelled.word (s := "ldc") (by decide +kernel) (breaks_space _)
          (spelled_constant hoperands).space
      simpa [htext, Record.tokens] using hrecord
  | table low high fallback targets =>
      have htext :
          (Record.table low high fallback targets).render =
            "tableswitch " ++ renderInt low.toInt ++ " " ++ renderInt high.toInt ++ " " ++
              fallback.render ++ String.join (targets.map fun t => " " ++ t.render) := rfl
      have htargets := spelled_labels targets
      have hbreak := breaks_labels targets
      have hfallback := (Spelled.label fallback hbreak htargets).space
      have hhigh := (Spelled.int high.toInt (breaks_space _) hfallback).space
      have hlow := (Spelled.int low.toInt (breaks_space _) hhigh).space
      have hrecord :=
        Spelled.word (s := "tableswitch") (by decide +kernel) (breaks_space _) hlow
      simpa [htext, Record.tokens] using hrecord
  | lookup fallback entries =>
      have htext :
          (Record.lookup fallback entries).render =
            "lookupswitch " ++ fallback.render ++
              String.join (entries.map fun (key, target) =>
                " " ++ renderInt key.toInt ++ ":" ++ target.render) := rfl
      have hentries := spelled_cases entries
      have hbreak := breaks_cases entries
      have hfallback := (Spelled.label fallback hbreak hentries).space
      have hrecord :=
        Spelled.word (s := "lookupswitch") (by decide +kernel) (breaks_space _) hfallback
      simpa [htext, Record.tokens] using hrecord
  | multiArray descriptor dimensions =>
      have htext :
          (Record.multiArray descriptor dimensions).render =
            "multianewarray " ++ descriptor ++ " " ++ renderNat dimensions.toNat := rfl
      have hdimensions := Spelled.nat dimensions.toNat breaks_nil Spelled.nil
      have hdescriptor :=
        Spelled.word (isWordText_of_isWord hoperands) (breaks_space _) hdimensions.space
      have hrecord :=
        Spelled.word (s := "multianewarray") (by decide +kernel) (breaks_space _)
          hdescriptor.space
      simpa [htext, Record.tokens] using hrecord
  | label l =>
      have htext : (Record.label l).render = l.render ++ ":" := rfl
      have hrecord := Spelled.label l (breaks_cons rfl []) Spelled.nil.colon
      simpa [htext, Record.tokens] using hrecord
  | frame f =>
      have htext :
          (Record.frame f).render =
            "frame " ++ f.kind.keyword ++ " " ++ VerificationType.renderList f.locals ++ " " ++
              VerificationType.renderList f.stack := rfl
      have hstack := (spelled_list hoperands.2 Spelled.nil).space
      have hlocals := (spelled_list hoperands.1 hstack).space
      have hkind := Spelled.word (isWordText_frameKeyword f.kind) (breaks_space _) hlocals
      have hrecord :=
        Spelled.word (s := "frame") (by decide +kernel) (breaks_space _) hkind.space
      simpa [htext, Record.tokens] using hrecord

end Listing
end SlotFlow
