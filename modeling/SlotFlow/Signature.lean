import SlotFlow.Value

/-!
# Signatures of arithmetic

The arithmetic instructions pop operands of one or two slots and push one result. What kinds
the operands have to be of is no part of a signature: folding has a table of its own for that.

Main definitions:

* `Signature`: slots of the operands, deepest first, and the category of the result;
* `Opcode.signature?`: the signature of an arithmetic opcode.
-/

namespace SlotFlow

/-- How many slots an operand takes. -/
inductive Width where
  | one
  | two
deriving DecidableEq

/-- The number of slots. -/
def Width.slots : Width → Nat
  | one => 1
  | two => 2

/-- Slots of the operands, deepest first, and the category of the result. -/
inductive Signature where
  | unary (operand : Width) (result : Category)
  | binary (left right : Width) (result : Category)
deriving DecidableEq

namespace Signature

/-- Slots of the operands, deepest first. -/
def widths : Signature → List Width
  | unary operand _ => [operand]
  | binary left right _ => [left, right]

/-- The category of the result. -/
def result : Signature → Category
  | unary _ result | binary _ _ result => result

end Signature

/-- The signature of an arithmetic opcode: operations, comparisons, conversions. -/
def Opcode.signature? : Opcode → Option Signature
  | iadd | isub | imul | idiv | irem | iand | ior | ixor | ishl | ishr | iushr =>
      some (.binary .one .one .int)
  | ladd | lsub | lmul | ldiv | lrem | land | lor | lxor =>
      some (.binary .two .two .long)
  | lshl | lshr | lushr => some (.binary .two .one .long)
  | fadd | fsub | fmul | fdiv | frem => some (.binary .one .one .float)
  | dadd | dsub | dmul | ddiv | drem => some (.binary .two .two .double)
  | lcmp => some (.binary .two .two .int)
  | fcmpl | fcmpg => some (.binary .one .one .int)
  | dcmpl | dcmpg => some (.binary .two .two .int)
  | ineg => some (.unary .one .int)
  | lneg => some (.unary .two .long)
  | fneg => some (.unary .one .float)
  | dneg => some (.unary .two .double)
  | i2l => some (.unary .one .long)
  | i2f => some (.unary .one .float)
  | i2d => some (.unary .one .double)
  | l2i => some (.unary .two .int)
  | l2f => some (.unary .two .float)
  | l2d => some (.unary .two .double)
  | f2i => some (.unary .one .int)
  | f2l => some (.unary .one .long)
  | f2d => some (.unary .one .double)
  | d2i => some (.unary .two .int)
  | d2l => some (.unary .two .long)
  | d2f => some (.unary .two .float)
  | i2b | i2c | i2s => some (.unary .one .int)
  | _ => none

end SlotFlow
