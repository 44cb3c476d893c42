import SlotFlow.Listing.Parse
import SlotFlow.Literal

/-!
# Faults

Everything that can stop an analysis.

Main definitions:

* `Fault`: the causes;
* `Fault.message`: their wording;
* `Fault.isInvariantViolation`: whether the records cannot be verified code.
-/

namespace SlotFlow

/-- The causes that stop an analysis. -/
inductive Fault where
  /-- A file could not be read. -/
  | unreadable (reason : String)
  /-- Subroutines are not analysed. -/
  | unsupported (op : Opcode)
  /-- Only expanded frames state all their types. -/
  | compressedFrame (kind : FrameKind)
  | invalidDescriptor (descriptor : String)
  /-- An opcode stands with operands that it does not take. -/
  | misfit (op : Opcode) (shape : Shape)
  /-- No array has this type code. -/
  | invalidArrayCode (code : Int32)
  /-- The setting of this name is not a number of slots. -/
  | invalidLimit (name value : String)
  /-- An observer found an instruction malformed. -/
  | malformed (message : String)
  /-- The operand stack held too few slots; before any instruction there is no opcode. -/
  | stackUnderflow (op : Option Opcode)
  | stackOverflow (limit : Nat)
  | unreachable
  /-- Known operands had the wrong runtime types. -/
  | literalMismatch (op : Opcode) (expected found : List Kind)
  | listing (refusal : Listing.Refusal)
deriving DecidableEq

namespace Fault

/-- The names of kinds, separated by commas. -/
def kindNames
    (kinds : List Kind) :
    String :=
  ", ".intercalate (kinds.map Kind.name)

/-- The wording of a fault. -/
def message : Fault → String
  | unreadable reason => "IO error: " ++ reason
  | unsupported op =>
      "Unsupported instruction: " ++ op.mnemonic ++ " (subroutines are not analysed)"
  | compressedFrame kind =>
      "Compressed frame record (" ++ kind.keyword ++
        ") is not supported; frames must be expanded"
  | invalidDescriptor descriptor => "Invalid descriptor: " ++ descriptor
  | misfit op shape =>
      "Malformed instruction: " ++ op.mnemonic ++ " does not take " ++ shape.name ++ " operands"
  | invalidArrayCode code =>
      "Malformed instruction: newarray with invalid type code " ++
        Text.Decimal.renderInt code.toInt
  | invalidLimit name value =>
      "Malformed instruction: " ++ name ++ " must be a slot count, got '" ++ value ++ "'"
  | malformed message => "Malformed instruction: " ++ message
  | stackUnderflow op => "Stack underflow at " ++ (op.map Opcode.mnemonic).getD "<none>"
  | stackOverflow limit =>
      "Stack overflow: limit of " ++ Text.Decimal.renderNat limit ++ " slots exceeded"
  | unreachable => "Frame is unreachable"
  | literalMismatch op expected found =>
      "Literal mismatch at " ++ op.mnemonic ++ ": expected " ++ kindNames expected ++
        ", found " ++ kindNames found
  | listing refusal =>
      "Listing error at line " ++ Text.Decimal.renderNat refusal.line ++ ": " ++
        refusal.complaint.message

/-- Whether the fault shows that the records are not verified code. -/
def isInvariantViolation : Fault → Bool
  | stackUnderflow _ | stackOverflow _ | unreachable | literalMismatch _ _ _ => true
  | _ => false

end Fault
end SlotFlow
