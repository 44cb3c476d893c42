import SlotFlow.ArrayElement

/-!
# Records

The body of a method is a list of records: instructions with resolved operands,
labels, and frames that state the types at a point where control flow joins.

Main definitions:

* `Label`, `Constant`, `VerificationType`, `FrameRecord`: what records are made of;
* `Record`: one record;
* `Record.opcode?`: the opcode of an instruction;
* `Record.misfit?`: an opcode that does not take the operands it stands with;
* `Record.numericEq`: equality that compares floats as numbers.

Main statement:

* `Record.shape_of_fits`: an opcode that takes its operands has their shape.
-/

namespace SlotFlow

/-- A symbolic position in a method body. -/
structure Label where
  id : UInt32
deriving DecidableEq

/-- A constant that can be loaded. -/
inductive Constant where
  | int (value : Int32)
  | long (value : Int64)
  | float (value : Float32)
  | double (value : Float)
  | string (text : String)
  /-- A class, by internal name or array descriptor. -/
  | classOf (name : String)
  /-- A method type, by descriptor. -/
  | methodType (descriptor : String)
  | methodHandle (owner name descriptor : String)
deriving DecidableEq

/-- The type of one entry of a frame; a wide type is one entry. -/
inductive VerificationType where
  | top
  | int
  | float
  | double
  | long
  | null
  | uninitializedThis
  /-- A class by internal name, or an array by descriptor. -/
  | object (name : String)
  /-- An object that the instruction at this label has created. -/
  | uninitialized (label : Label)
deriving DecidableEq

/-- Whether the entry stands for two slots. -/
def VerificationType.isWide : VerificationType → Bool
  | long | double => true
  | _ => false

/-- How a frame is encoded; only an expanded one lists all its types. -/
inductive FrameKind where
  | expanded
  | full
  | append
  | chop
  | same
  | same1
deriving DecidableEq

namespace FrameKind

/-- Every kind of frame. -/
def all : List FrameKind :=
  [expanded, full, append, chop, same, same1]

/-- The name of a kind in a listing. -/
def keyword : FrameKind → String
  | expanded => "expanded"
  | full => "full"
  | append => "append"
  | chop => "chop"
  | same => "same"
  | same1 => "same1"

/-- The kind of a keyword. -/
def ofKeyword?
    (keyword : String) :
    Option FrameKind :=
  all.find? fun kind => kind.keyword == keyword

/-- A keyword leads to its kind. -/
theorem ofKeyword_keyword
    (kind : FrameKind) :
    ofKeyword? kind.keyword = some kind := by
  cases kind <;> decide

end FrameKind

/-- The types of the locals and of the operand stack, bottom first. -/
structure FrameRecord where
  kind : FrameKind
  locals : List VerificationType
  stack : List VerificationType
deriving DecidableEq

/--
One record of a method body. The opcode need not fit the operands it stands with;
see `Record.misfit?`.
-/
inductive Record where
  /-- An opcode without operands. -/
  | bare (op : Opcode)
  /-- A number, or the type code of `newarray`. -/
  | integer (op : Opcode) (operand : Int32)
  /-- The index of a local. -/
  | slot (op : Opcode) (index : UInt16)
  /-- Adds `delta` to a local. -/
  | increment (index : UInt16) (delta : Int32)
  | typed (op : Opcode) (name : String)
  | field (op : Opcode) (owner name descriptor : String)
  | method (op : Opcode) (owner name descriptor : String) (interface : Bool)
  | callSite (name descriptor : String)
  | jump (op : Opcode) (target : Label)
  | load (constant : Constant)
  /-- One target for each key from `low` to `high`. -/
  | table (low high : Int32) (fallback : Label) (targets : List Label)
  | lookup (fallback : Label) (cases : List (Int32 × Label))
  | multiArray (descriptor : String) (dimensions : UInt8)
  | label (label : Label)
  | frame (frame : FrameRecord)
deriving DecidableEq

namespace Record

/-- The opcode of an instruction; labels and frames have none. -/
def opcode? : Record → Option Opcode
  | bare op => some op
  | integer op _ => some op
  | slot op _ => some op
  | increment _ _ => some .iinc
  | typed op _ => some op
  | field op _ _ _ => some op
  | method op _ _ _ _ => some op
  | callSite _ _ => some .invokedynamic
  | jump op _ => some op
  | load _ => some .ldc
  | table _ _ _ _ => some .tableswitch
  | lookup _ _ => some .lookupswitch
  | multiArray _ _ => some .multianewarray
  | label _ => none
  | frame _ => none

/-- The shape of the operands that a record carries beside a free opcode. -/
def operandShape? : Record → Option (Opcode × Shape)
  | bare op => some (op, .bare)
  | integer op _ => some (op, .integer)
  | slot op _ => some (op, .slot)
  | typed op _ => some (op, .typed)
  | field op _ _ _ => some (op, .field)
  | method op _ _ _ _ => some (op, .method)
  | jump op _ => some (op, .jump)
  | _ => none

/-- The opcode and the operands of a record that do not go together. -/
def misfit?
    (r : Record) :
    Option (Opcode × Shape) :=
  r.operandShape?.filter fun (op, shape) => op.shape ≠ shape

/-- An opcode that takes its operands has their shape. -/
theorem shape_of_fits
    {r : Record}
    {op : Opcode}
    {shape : Shape}
    (h : r.misfit? = none)
    (hr : r.operandShape? = some (op, shape)) :
    op.shape = shape := by
  simpa [misfit?, hr] using h

/-- A method record that is an interface's exactly if its opcode says so. -/
def plainMethod
    (op : Opcode)
    (owner name descriptor : String) :
    Record :=
  method op owner name descriptor (op = .invokeinterface)

end Record

/-- Equality of constants as numbers: zeros are equal, and NaN differs from itself. -/
def Constant.numericEq : Constant → Constant → Bool
  | float x, float y => x == y
  | double x, double y => x == y
  | a, b => a = b

/-- Equality of records whose constants are compared as numbers. -/
def Record.numericEq : Record → Record → Bool
  | load a, load b => a.numericEq b
  | a, b => a = b

end SlotFlow
