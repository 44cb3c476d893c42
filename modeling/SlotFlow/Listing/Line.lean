import SlotFlow.Listing.Token
import SlotFlow.Listing.Complaint
import SlotFlow.Number.Scientific
import SlotFlow.Text.Split
import SlotFlow.Record

/-!
# One line of a listing

A line defines any number of labels and then holds at most one record.

Main definitions:

* `Parser`: reads tokens from the front of a line;
* `instruction`: one instruction or frame;
* `parseLine`: all records of a line.

Main statement:

* `verificationType_length`: reading a frame entry leaves a shorter line, which is
  why reading a list of entries ends.
-/

namespace SlotFlow

/-- A changed outcome is a success only if the outcome was. -/
theorem exists_of_map_eq_ok
    {ε α β : Type}
    {x : Except ε α}
    {f : α → β}
    {b : β}
    (h : x.map f = .ok b) :
    ∃ a, x = .ok a ∧ f a = b := by
  cases x with
  | error e =>
      cases h
  | ok a =>
      cases h
      exact ⟨a, rfl, rfl⟩

namespace Listing

/-- Reads something from the front of the tokens, or refuses the line. -/
abbrev Parser :=
  StateT (List Token) (Except Complaint)

/-- The next token. -/
def next : Parser Token
  | [] => .error .unexpectedEnd
  | t :: ts => .ok (t, ts)

/-- The text of the next token, which has to be of the kind given. -/
def expect
    (kind : TokenKind)
    (what : Expected) :
    Parser String := do
  let t ← next
  if t.kind = kind then
    pure t.text
  else
    throw (.expected what t.text)

/-- The next token, which has to be a word. -/
def word
    (what : Expected) :
    Parser String :=
  expect .word what

/-- Whether the next token is of the kind given. -/
def startsWith
    (kind : TokenKind) :
    Parser Bool :=
  fun ts => .ok (ts.head?.any (·.kind = kind), ts)

/-- What was read, or a complaint where nothing was. -/
def orRefuse
    {α : Type}
    (read : Option α)
    (complaint : Complaint) :
    Parser α :=
  match read with
  | some a => pure a
  | none => throw complaint

/-- A number in the range that `read` allows. -/
def number
    {α : Type}
    (what : Expected)
    (read : List Char → Option α) :
    Parser α := do
  let text ← expect .int what
  orRefuse (read text.toList) (.outOfRange what text)

/-- The label of a word: `L` and a number. -/
def labelOfWord?
    (text : String) :
    Option Label :=
  match text.toList with
  | 'L' :: ds => (Text.Decimal.readUInt32? ds).map Label.mk
  | _ => none

/-- A reference to a label. -/
def label : Parser Label := do
  let text ← word .label
  orRefuse (labelOfWord? text) (.invalidLabel text)

/-- Labels up to the end of the line. -/
def labels : List Token → Except Complaint (List Label)
  | [] => .ok []
  | t :: ts =>
      match label [t] with
      | .error c => .error c
      | .ok (l, _) => (labels ts).map (l :: ·)

/-- Keys with their labels up to the end of the line. -/
def switchCases : List Token → Except Complaint (List (Int32 × Label))
  | [] => .ok []
  | key :: colon :: target :: ts =>
      match switchCase [key, colon, target] with
      | .error c => .error c
      | .ok (entry, _) => (switchCases ts).map (entry :: ·)
  | ts =>
      match switchCase ts with
      | .error c => .error c
      | .ok (entry, _) => .ok [entry]
where
  /-- One key and its label. -/
  switchCase : Parser (Int32 × Label) := do
    let key ← number .switchKey Text.Decimal.readInt32?
    let _ ← expect .colon .colon
    let target ← label
    pure (key, target)

/-- Runs a reader that takes the rest of the line. -/
def toEnd
    {α : Type}
    (read : List Token → Except Complaint α) :
    Parser α :=
  fun ts => (read ts).map (·, [])

/-- The owner and the name of a member, cut at the last point; neither is empty. -/
def member : Parser (String × String) := do
  let text ← word .memberReference
  match Text.splitLast? '.' text.toList with
  | some (owner, name) =>
      if owner.isEmpty || name.isEmpty then
        throw (.notAMember text)
      else
        pure (String.ofList owner, String.ofList name)
  | none => throw (.notAMember text)

/-- The constant that follows a minus sign. -/
def negativeConstant : Parser Constant := do
  let text ← word .infinity
  match text with
  | "Infinityf" => pure (.float (-1.0 / 0.0))
  | "Infinity" | "Infinityd" => pure (.double (-1.0 / 0.0))
  | other => throw (.invalidConstant ("-" ++ other))

/-- The constant that a word starts. -/
def wordConstant
    (text : String) :
    Parser Constant :=
  match text with
  | "NaNf" => pure (.float (0.0 / 0.0))
  | "NaN" | "NaNd" => pure (.double (0.0 / 0.0))
  | "Infinityf" => pure (.float (1.0 / 0.0))
  | "Infinity" | "Infinityd" => pure (.double (1.0 / 0.0))
  | "class" => do
      let name ← word .className
      pure (.classOf name)
  | "methodtype" => do
      let descriptor ← word .methodDescriptor
      pure (.methodType descriptor)
  | "handle" => do
      let (owner, name) ← member
      let descriptor ← word .descriptor
      pure (.methodHandle owner name descriptor)
  | other => throw (.invalidConstant other)

/-- A number without the letter of its format. -/
def withoutLetter
    (text : String) :
    List Char :=
  text.toList.dropLast

/-- The digits of a double, whose letter may be missing. -/
def doubleDigits
    (text : String) :
    List Char :=
  if text.toList.getLast?.any Char.isDigit then text.toList else withoutLetter text

/-- The text between the quotes of a quoted token. -/
def insideQuotes
    (text : String) :
    List Char :=
  (text.toList.drop 1).dropLast

/-- A constant that can be loaded. -/
def constant : Parser Constant := do
  let t ← next
  match t.kind with
  | .int =>
      orRefuse ((Text.Decimal.readInt32? t.text.toList).map .int) (.intOutOfRange t.text)
  | .long =>
      orRefuse ((Text.Decimal.readInt64? (withoutLetter t.text)).map .long)
        (.longOutOfRange t.text)
  | .float =>
      orRefuse ((Number.Scientific.read? (withoutLetter t.text)).map fun s => .float s.toSingle)
        (.invalidFloat t.text)
  | .double =>
      orRefuse ((Number.Scientific.read? (doubleDigits t.text)).map fun s => .double s.toDouble)
        (.invalidDouble t.text)
  | .quoted =>
      match Text.Quoted.decode (insideQuotes t.text) with
      | .ok text => pure (.string (String.ofList text))
      | .error e => throw (.invalidEscape e)
  | .minus => negativeConstant
  | .word => wordConstant t.text
  | _ => throw (.invalidConstant t.text)

/-- The type code of `newarray`, as a number or a keyword. -/
def arrayCode : Parser Int32 := do
  let t ← next
  match t.kind with
  | .int => orRefuse (Text.Decimal.readInt32? t.text.toList) (.invalidArrayType t.text)
  | .word =>
      orRefuse ((ArrayElement.ofKeyword? t.text).map ArrayElement.code)
        (.invalidArrayType t.text)
  | _ => throw (.invalidArrayType t.text)

/-- Whether a method record ends in the word for an interface. -/
def interfaceMark : Parser Bool
  | ⟨.word, "itf"⟩ :: ts => .ok (true, ts)
  | ts => .ok (false, ts)

/-- The operands of a switch over a range of keys: one target for each key. -/
def table : Parser Record := do
  let low ← number .lowKey Text.Decimal.readInt32?
  let high ← number .highKey Text.Decimal.readInt32?
  let fallback ← label
  let targets ← toEnd labels
  if high < low ∨ (targets.length : Int) ≠ high.toInt - low.toInt + 1 then
    throw (.tableSize low high targets.length)
  else
    pure (.table low high fallback targets)

/-- The operands that the shape of an opcode asks for. -/
def operands
    (op : Opcode) :
    Parser Record :=
  match op.shape with
  | .bare => pure (.bare op)
  | .integer => do
      let operand ←
        if op = .newarray then arrayCode else number .operand Text.Decimal.readInt32?
      pure (.integer op operand)
  | .slot => do
      let index ← number .localIndex Text.Decimal.readUInt16?
      pure (.slot op index)
  | .increment => do
      let index ← number .localIndex Text.Decimal.readUInt16?
      let delta ← number .delta Text.Decimal.readInt32?
      pure (.increment index delta)
  | .typed => do
      let name ← word .typeName
      pure (.typed op name)
  | .field => do
      let (owner, name) ← member
      let descriptor ← word .fieldDescriptor
      pure (.field op owner name descriptor)
  | .method => do
      let (owner, name) ← member
      let descriptor ← word .methodDescriptor
      let marked ← interfaceMark
      pure (.method op owner name descriptor (marked || op = .invokeinterface))
  | .callSite => do
      let name ← word .callSiteName
      let descriptor ← word .methodDescriptor
      pure (.callSite name descriptor)
  | .jump => do
      let target ← label
      pure (.jump op target)
  | .constant => do
      let value ← constant
      pure (.load value)
  | .table => table
  | .lookup => do
      let fallback ← label
      let cases ← toEnd switchCases
      pure (.lookup fallback cases)
  | .multiArray => do
      let descriptor ← word .arrayDescriptor
      let dimensions ← number .dimensions Text.Decimal.readUInt8?
      pure (.multiArray descriptor dimensions)

/-- The type that a single word names: a keyword, or else a class or an array. -/
def typeOfWord
    (text : String) :
    VerificationType :=
  match text with
  | "top" => .top
  | "int" => .int
  | "float" => .float
  | "long" => .long
  | "double" => .double
  | "null" => .null
  | "uninit_this" => .uninitializedThis
  | name => .object name

/-- The label behind the word for an object that is not initialized. -/
def creationLabel : Parser Label := do
  let _ ← expect .colon .colon
  label

/-- One entry of a frame. -/
def verificationType : Parser VerificationType := do
  let text ← word .verificationType
  if text = "uninit" then
    let l ← creationLabel
    pure (.uninitialized l)
  else
    pure (typeOfWord text)

/-- Two readers in a row succeed only if both do, the second on what the first left. -/
theorem exists_of_bind_eq_ok
    {α β : Type}
    {p : Parser α}
    {f : α → Parser β}
    {ts rest : List Token}
    {b : β}
    (h : (p >>= f) ts = .ok (b, rest)) :
    ∃ a mid, p ts = .ok (a, mid) ∧ f a mid = .ok (b, rest) := by
  change Except.bind (p ts) _ = _ at h
  cases hp : p ts with
  | error c =>
    rw [hp] at h
    cases h
  | ok r =>
    rw [hp] at h
    exact ⟨r.1, r.2, rfl, h⟩

/-- What passes `orRefuse` was read, and no token was taken. -/
theorem orRefuse_eq_ok
    {α : Type}
    {read : Option α}
    {complaint : Complaint}
    {ts rest : List Token}
    {a : α}
    (h : orRefuse read complaint ts = .ok (a, rest)) :
    read = some a ∧ rest = ts := by
  cases read with
  | none => cases h
  | some b =>
    cases h
    exact ⟨rfl, rfl⟩

/-- Reading a token of some kind takes one token. -/
theorem expect_length
    {kind : TokenKind}
    {what : Expected}
    {ts rest : List Token}
    {text : String}
    (h : expect kind what ts = .ok (text, rest)) :
    rest.length < ts.length := by
  obtain ⟨t, mid, hnext, hrest⟩ := exists_of_bind_eq_ok h
  cases ts with
  | nil => cases hnext
  | cons u us =>
    cases hnext
    by_cases hkind : t.kind = kind
    · rw [if_pos hkind] at hrest
      cases hrest
      exact Nat.lt_succ_self _
    · rw [if_neg hkind] at hrest
      cases hrest

/-- Reading a label takes one token. -/
theorem label_length
    {ts rest : List Token}
    {l : Label}
    (h : label ts = .ok (l, rest)) :
    rest.length < ts.length := by
  obtain ⟨text, mid, hword, hread⟩ := exists_of_bind_eq_ok h
  obtain ⟨_, rfl⟩ := orRefuse_eq_ok hread
  exact expect_length hword

/-- Reading a colon and a label takes tokens. -/
theorem creationLabel_length
    {ts rest : List Token}
    {l : Label}
    (h : creationLabel ts = .ok (l, rest)) :
    rest.length < ts.length := by
  obtain ⟨_, mid, hcolon, hlabel⟩ := exists_of_bind_eq_ok h
  exact Nat.lt_trans (label_length hlabel) (expect_length hcolon)

/-- Reading a frame entry leaves a shorter line. -/
theorem verificationType_length
    {ts rest : List Token}
    {type : VerificationType}
    (h : verificationType ts = .ok (type, rest)) :
    rest.length < ts.length := by
  obtain ⟨text, mid, hword, htype⟩ := exists_of_bind_eq_ok h
  have hmid := expect_length hword
  by_cases htext : text = "uninit"
  · rw [if_pos htext] at htype
    obtain ⟨l, last, hlabel, hpure⟩ := exists_of_bind_eq_ok htype
    cases hpure
    exact Nat.lt_trans (creationLabel_length hlabel) hmid
  · rw [if_neg htext] at htype
    cases htype
    exact hmid

/-- Frame entries up to the closing brace, at least one. -/
def entries
    (ts : List Token) :
    Except Complaint (List VerificationType × List Token) :=
  match _h : verificationType ts with
  | .error c => .error c
  | .ok (_, []) => .error .unexpectedEnd
  | .ok (type, t :: more) =>
      match t.kind with
      | .comma => (entries more).map fun (types, rest) => (type :: types, rest)
      | .closeBrace => .ok ([type], more)
      | _ => .error (.unclosedTypes t.text)
termination_by ts.length
decreasing_by
  have hlen := verificationType_length (by assumption)
  simp only [List.length_cons] at hlen
  omega

/-- Frame entries between braces. -/
def typeList : Parser (List VerificationType) := do
  let _ ← expect .openBrace .openBrace
  if ← startsWith .closeBrace then
    let _ ← next
    pure []
  else
    entries

/-- The kind and the types of a frame. -/
def frame : Parser Record := do
  let keyword ← word .frameKind
  let kind ← orRefuse (FrameKind.ofKeyword? keyword) (.unknownFrameKind keyword)
  let locals ← typeList
  let stack ← typeList
  pure (.frame ⟨kind, locals, stack⟩)

/-- The opcode of a mnemonic; the wide forms have the opcode of the narrow ones. -/
def opcodeOfMnemonic?
    (mnemonic : String) :
    Option Opcode :=
  match mnemonic with
  | "ldc_w" | "ldc2_w" => some .ldc
  | "goto_w" => some .goto
  | "jsr_w" => some .jsr
  | other => Opcode.ofMnemonic? other

/-- A load or store whose mnemonic ends in an underscore and a slot up to three. -/
def shortForm?
    (mnemonic : String) :
    Option Record := do
  let (base, slot) ← Text.splitLast? '_' mnemonic.toList
  let op ← Opcode.ofMnemonic? (String.ofList base)
  let index ← (Text.Decimal.readUInt16? slot).filter (· ≤ 3)
  if op.shape = .slot ∧ op ≠ .ret then
    some (.slot op index)
  else
    none

/-- One instruction or frame. -/
def instruction : Parser Record := do
  let mnemonic ← word .mnemonic
  if mnemonic = "frame" then
    frame
  else
    match opcodeOfMnemonic? mnemonic with
    | some op => operands op
    | none => orRefuse (shortForm? mnemonic) (.unknownMnemonic mnemonic)

/-- One instruction or frame that takes all tokens. -/
def wholeInstruction
    (ts : List Token) :
    Except Complaint Record :=
  match instruction ts with
  | .error c => .error c
  | .ok (r, []) => .ok r
  | .ok (_, t :: _) => .error (.trailingInput t.text)

/-- Label definitions, then at most one instruction or frame. -/
def records : List Token → Except Complaint (List Record)
  | [] => .ok []
  | [t] => (wholeInstruction [t]).map ([·])
  | t :: u :: ts =>
      if t.kind = .word ∧ u.kind = .colon then
        match labelOfWord? t.text with
        | some l => (records ts).map (.label l :: ·)
        | none => .error (.invalidLabel t.text)
      else
        (wholeInstruction (t :: u :: ts)).map ([·])

/-- All records of a line; the line is cut into tokens before any is read. -/
def parseLine
    (cs : List Char) :
    Except Complaint (List Record) :=
  match tokenize cs with
  | .error text => .error (.unexpectedInput text)
  | .ok ts => records ts

end Listing
end SlotFlow
