import SlotFlow.Fault

/-!
# Constant folding

Arithmetic on known operands as the virtual machine does it: two's complement with
wraparound, shift counts taken modulo the width, IEEE floats, conversions to integers
that stop at the ends of the range. Where an operand is unknown the result is, and so
it is where an integer is divided by zero.

Main definitions:

* `Opcode.expectedKinds`: the kinds of operands that a mismatch report names;
* `fold1`: negations and conversions;
* `fold2`: operations and comparisons; the left operand lies deeper on the stack.

Main statements:

* `fold1_unknown`, `fold2_unknown_left`, `fold2_unknown_right`: an unknown operand
  folds to an unknown result, whatever the opcode.
-/

namespace SlotFlow

/-- The kinds of operands that a mismatch report names; one that is named alone is meant for all. -/
def Opcode.expectedKinds : Opcode → List Kind
  | lshl | lshr | lushr => [.long, .int]
  | ladd | lsub | lmul | ldiv | lrem | land | lor | lxor | lneg | lcmp | l2i | l2f | l2d =>
      [.long]
  | fadd | fsub | fmul | fdiv | frem | fneg | fcmpl | fcmpg | f2i | f2l | f2d => [.float]
  | dadd | dsub | dmul | ddiv | drem | dneg | dcmpl | dcmpg | d2i | d2l | d2f => [.double]
  | _ => [.int]

namespace Fold

/-- Negation and conversions of an int. -/
def onInt?
    (v : Int32) :
    Opcode → Option Literal
  | .ineg => some (.int (-v))
  | .i2l => some (.long v.toInt64)
  | .i2f => some (.float (Float32.ofInt v.toInt))
  | .i2d => some (.double (Float.ofInt v.toInt))
  | .i2b => some (.int v.toInt8.toInt32)
  | .i2c => some (.int v.toUInt32.toUInt16.toUInt32.toInt32)
  | .i2s => some (.int v.toInt16.toInt32)
  | _ => none

/-- Negation and conversions of a long. -/
def onLong?
    (v : Int64) :
    Opcode → Option Literal
  | .lneg => some (.long (-v))
  | .l2i => some (.int v.toInt32)
  | .l2f => some (.float (Float32.ofInt v.toInt))
  | .l2d => some (.double (Float.ofInt v.toInt))
  | _ => none

/-- Negation and conversions of a float. -/
def onFloat?
    (v : Float32) :
    Opcode → Option Literal
  | .fneg => some (.float (-v))
  | .f2i => some (.int (Number.readSingle v).toInt32)
  | .f2l => some (.long (Number.readSingle v).toInt64)
  | .f2d => some (.double (Number.widen v))
  | _ => none

/-- Negation and conversions of a double. -/
def onDouble?
    (v : Float) :
    Opcode → Option Literal
  | .dneg => some (.double (-v))
  | .d2i => some (.int (Number.readDouble v).toInt32)
  | .d2l => some (.long (Number.readDouble v).toInt64)
  | .d2f => some (.float (Number.narrow v))
  | _ => none

/-- Operations on two ints. -/
def onInts?
    (a b : Int32) :
    Opcode → Option Literal
  | .iadd => some (.int (a + b))
  | .isub => some (.int (a - b))
  | .imul => some (.int (a * b))
  | .idiv => some (if b = 0 then .unknown else .int (a / b))
  | .irem => some (if b = 0 then .unknown else .int (a % b))
  | .iand => some (.int (a &&& b))
  | .ior => some (.int (a ||| b))
  | .ixor => some (.int (a ^^^ b))
  | .ishl => some (.int (a <<< b))
  | .ishr => some (.int (a >>> b))
  | .iushr => some (.int (a.toUInt32 >>> b.toUInt32).toInt32)
  | _ => none

/-- The sign of a comparison. -/
def comparison
    (less equal : Bool) :
    Int32 :=
  if less then -1 else if equal then 0 else 1

/-- Operations and the comparison of two longs. -/
def onLongs?
    (a b : Int64) :
    Opcode → Option Literal
  | .ladd => some (.long (a + b))
  | .lsub => some (.long (a - b))
  | .lmul => some (.long (a * b))
  | .ldiv => some (if b = 0 then .unknown else .long (a / b))
  | .lrem => some (if b = 0 then .unknown else .long (a % b))
  | .land => some (.long (a &&& b))
  | .lor => some (.long (a ||| b))
  | .lxor => some (.long (a ^^^ b))
  | .lcmp => some (.int (comparison (a < b) (a = b)))
  | _ => none

/-- Shifts of a long by an int. -/
def onLongInt?
    (a : Int64)
    (b : Int32) :
    Opcode → Option Literal
  | .lshl => some (.long (a <<< b.toInt64))
  | .lshr => some (.long (a >>> b.toInt64))
  | .lushr => some (.long (a.toUInt64 >>> b.toInt64.toUInt64).toInt64)
  | _ => none

/-- A comparison of floats; `unordered` stands for one with a NaN. -/
def floatComparison
    (less equal greater : Bool)
    (unordered : Int32) :
    Int32 :=
  if less then -1 else if equal then 0 else if greater then 1 else unordered

/-- Operations and comparisons of two floats. -/
def onFloats?
    (a b : Float32) :
    Opcode → Option Literal
  | .fadd => some (.float (a + b))
  | .fsub => some (.float (a - b))
  | .fmul => some (.float (a * b))
  | .fdiv => some (.float (a / b))
  | .frem => some (.float (Number.singleRemainder a b))
  | .fcmpl => some (.int (floatComparison (a < b) (a == b) (b < a) (-1)))
  | .fcmpg => some (.int (floatComparison (a < b) (a == b) (b < a) 1))
  | _ => none

/-- Operations and comparisons of two doubles. -/
def onDoubles?
    (a b : Float) :
    Opcode → Option Literal
  | .dadd => some (.double (a + b))
  | .dsub => some (.double (a - b))
  | .dmul => some (.double (a * b))
  | .ddiv => some (.double (a / b))
  | .drem => some (.double (Number.doubleRemainder a b))
  | .dcmpl => some (.int (floatComparison (a < b) (a == b) (b < a) (-1)))
  | .dcmpg => some (.int (floatComparison (a < b) (a == b) (b < a) 1))
  | _ => none

/-- The result of an opcode on a known operand, if the kind is right. -/
def known1?
    (op : Opcode) :
    Literal → Option Literal
  | .int v => onInt? v op
  | .long v => onLong? v op
  | .float v => onFloat? v op
  | .double v => onDouble? v op
  | _ => none

/-- The result of an opcode on known operands, if the kinds are right. -/
def known2?
    (op : Opcode) :
    Literal → Literal → Option Literal
  | .int a, .int b => onInts? a b op
  | .long a, .long b => onLongs? a b op
  | .long a, .int b => onLongInt? a b op
  | .float a, .float b => onFloats? a b op
  | .double a, .double b => onDoubles? a b op
  | _, _ => none

/-- The result that was found, or a report of the kinds of the operands. -/
def orMismatch
    (op : Opcode)
    (found : List Kind) :
    Option Literal → Except Fault Literal
  | some result => .ok result
  | none => .error (.literalMismatch op op.expectedKinds found)

/-- Folds a negation or conversion. -/
def fold1
    (op : Opcode)
    (operand : Literal) :
    Except Fault Literal :=
  if operand.isKnown then
    orMismatch op [operand.kind] (known1? op operand)
  else
    .ok .unknown

/-- Folds an operation or comparison. -/
def fold2
    (op : Opcode)
    (left right : Literal) :
    Except Fault Literal :=
  if left.isKnown && right.isKnown then
    orMismatch op [left.kind, right.kind] (known2? op left right)
  else
    .ok .unknown

/-- An unknown operand folds to an unknown result. -/
theorem fold1_unknown
    (op : Opcode) :
    fold1 op .unknown = .ok .unknown :=
  rfl

/-- An unknown left operand folds to an unknown result. -/
theorem fold2_unknown_left
    (op : Opcode)
    (right : Literal) :
    fold2 op .unknown right = .ok .unknown :=
  rfl

/-- An unknown right operand folds to an unknown result. -/
theorem fold2_unknown_right
    (op : Opcode)
    (left : Literal) :
    fold2 op left .unknown = .ok .unknown := by
  cases left <;> rfl

end Fold
end SlotFlow
