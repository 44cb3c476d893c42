import SlotFlow.Record
import SlotFlow.Number.Layout
import SlotFlow.Text.Quoted

/-!
# Written records

Every record has one written form, a line of a listing. Operands are separated by
single blanks and always written out in full.

Main definitions:

* `Label.render`, `Constant.render`, `VerificationType.render`: the parts;
* `Record.render`: one record, without a line end;
* `Listing.render`: records, each ended by a line feed.
-/

namespace SlotFlow

open Text.Decimal (renderNat renderInt)

/-- A label is written as `L` and its number. -/
def Label.render
    (l : Label) :
    String :=
  "L" ++ renderNat l.id.toNat

/-- A float that may not be finite, with the letter of its format. -/
def Number.Reading.renderConstant
    (r : Number.Reading)
    (f : Number.Format)
    (letter : String) :
    String :=
  match r with
  | .nan => "NaN" ++ letter
  | .infinite negative => (if negative then "-" else "") ++ "Infinity" ++ letter
  | .finite _ _ _ => Number.Style.constant.render f r ++ letter

/-- The written form of a constant. -/
def Constant.render : Constant → String
  | int value => renderInt value.toInt
  | long value => renderInt value.toInt ++ "L"
  | float value => (Number.readSingle value).renderConstant .single "f"
  | double value => (Number.readDouble value).renderConstant .double "d"
  | string text => Text.Quoted.render text
  | classOf name => "class " ++ name
  | methodType descriptor => "methodtype " ++ descriptor
  | methodHandle owner name descriptor =>
      "handle " ++ owner ++ "." ++ name ++ " " ++ descriptor

/-- The written form of a frame entry. -/
def VerificationType.render : VerificationType → String
  | top => "top"
  | int => "int"
  | float => "float"
  | double => "double"
  | long => "long"
  | null => "null"
  | uninitializedThis => "uninit_this"
  | object name => name
  | uninitialized label => "uninit:" ++ label.render

/-- Frame entries between braces. -/
def VerificationType.renderList
    (types : List VerificationType) :
    String :=
  "\x7b" ++ ", ".intercalate (types.map VerificationType.render) ++ "\x7d"

/-- The operand of an integer instruction; `newarray` prefers a keyword. -/
def Record.renderOperand
    (op : Opcode)
    (operand : Int32) :
    String :=
  match op with
  | .newarray =>
      match ArrayElement.ofCode? operand with
      | some element => element.keyword
      | none => renderInt operand.toInt
  | _ => renderInt operand.toInt

/-- The written form of a record. -/
def Record.render : Record → String
  | bare op => op.mnemonic
  | integer op operand => op.mnemonic ++ " " ++ renderOperand op operand
  | slot op index => op.mnemonic ++ " " ++ renderNat index.toNat
  | increment index delta =>
      "iinc " ++ renderNat index.toNat ++ " " ++ renderInt delta.toInt
  | typed op name => op.mnemonic ++ " " ++ name
  | field op owner name descriptor =>
      op.mnemonic ++ " " ++ owner ++ "." ++ name ++ " " ++ descriptor
  | method op owner name descriptor interface =>
      op.mnemonic ++ " " ++ owner ++ "." ++ name ++ " " ++ descriptor ++
        (if interface && op ≠ .invokeinterface then " itf" else "")
  | callSite name descriptor => "invokedynamic " ++ name ++ " " ++ descriptor
  | jump op target => op.mnemonic ++ " " ++ target.render
  | load constant => "ldc " ++ constant.render
  | table low high fallback targets =>
      "tableswitch " ++ renderInt low.toInt ++ " " ++ renderInt high.toInt ++ " " ++
        fallback.render ++ String.join (targets.map fun t => " " ++ t.render)
  | lookup fallback cases =>
      "lookupswitch " ++ fallback.render ++
        String.join (cases.map fun (key, target) =>
          " " ++ renderInt key.toInt ++ ":" ++ target.render)
  | multiArray descriptor dimensions =>
      "multianewarray " ++ descriptor ++ " " ++ renderNat dimensions.toNat
  | label l => l.render ++ ":"
  | frame f =>
      "frame " ++ f.kind.keyword ++ " " ++ VerificationType.renderList f.locals ++ " " ++
        VerificationType.renderList f.stack

namespace Listing

/-- The written form of records, one a line. -/
def render
    (records : List Record) :
    String :=
  String.join (records.map fun r => r.render ++ "\n")

end Listing
end SlotFlow
