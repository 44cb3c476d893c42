import SlotFlow.Frame
import SlotFlow.Signature

/-!
# Effects of instructions

What an instruction does to locals and operand stack is one of few kinds of effect,
with the operands filled in.

Main definitions:

* `Effect`: the kinds of effect;
* `Opcode.bareEffect`: the effect of an opcode without operands;
* `Record.effect`: the effect of an instruction.
-/

namespace SlotFlow

/-- The class of class constants. -/
def classClass : String :=
  "java/lang/Class"

/-- The class of method types. -/
def methodTypeClass : String :=
  "java/lang/invoke/MethodType"

/-- The class of method handles. -/
def methodHandleClass : String :=
  "java/lang/invoke/MethodHandle"

/-- The class of all objects. -/
def objectClass : String :=
  "java/lang/Object"

/-- Who receives a call. -/
inductive Receiver where
  /-- No object. -/
  | none
  | object
  /-- An object whose constructor is called, in the class given. -/
  | constructed (owner : String)
deriving DecidableEq

/-- What an instruction does to locals and operand stack. -/
inductive Effect where
  | nothing
  /-- Pushes a value. -/
  | push (v : Value)
  /-- Pops slots. -/
  | discard (slots : Nat)
  /-- Pops slots, then pushes a value. -/
  | replace (slots : Nat) (v : Value)
  /-- Pushes a local, and an empty slot after it for a wide load. -/
  | load (index : Nat) (wide : Bool)
  /-- Pops slots and writes the value in the deepest of them to a local. -/
  | store (index slots : Nat)
  /-- Adds a number to a local. -/
  | increment (index : Nat) (delta : Int32)
  /-- Pops an index and an array and pushes an element of its element type. -/
  | element
  /-- Pops slots one by one and pushes those of the positions given, 0 being the top. -/
  | shuffle (slots : Nat) (order : List Nat)
  /-- Folds known operands. -/
  | arithmetic (op : Opcode) (signature : Signature)
  /-- Pushes a field, after popping the object if it is not static. -/
  | readField (static : Bool) (name descriptor : String)
  /-- Pops the value of a field, and the object if it is not static. -/
  | writeField (static : Bool) (descriptor : String)
  /-- Pops arguments and receiver and pushes the result. -/
  | call (receiver : Receiver) (descriptor : String)
  /-- Pushes a new object that is not initialized. -/
  | create (type : String)
  /-- Cannot be executed. -/
  | refuse (fault : Fault)

/-- The effect of an opcode that stands without operands. -/
def Opcode.bareEffect
    (op : Opcode) :
    Effect :=
  match op.signature? with
  | some signature => .arithmetic op signature
  | none =>
      match op with
      | .aconstNull => .push .null
      | .iconstM1 => .push (.int (-1))
      | .iconst0 => .push (.int 0)
      | .iconst1 => .push (.int 1)
      | .iconst2 => .push (.int 2)
      | .iconst3 => .push (.int 3)
      | .iconst4 => .push (.int 4)
      | .iconst5 => .push (.int 5)
      | .lconst0 => .push (.long 0)
      | .lconst1 => .push (.long 1)
      | .fconst0 => .push (.float 0)
      | .fconst1 => .push (.float 1)
      | .fconst2 => .push (.float 2)
      | .dconst0 => .push (.double 0)
      | .dconst1 => .push (.double 1)
      | .iaload | .baload | .caload | .saload => .replace 2 (.unknown .int)
      | .faload => .replace 2 (.unknown .float)
      | .laload => .replace 2 (.unknown .long)
      | .daload => .replace 2 (.unknown .double)
      | .aaload => .element
      | .iastore | .fastore | .aastore | .bastore | .castore | .sastore => .discard 3
      | .lastore | .dastore => .discard 4
      | .pop => .discard 1
      | .pop2 => .discard 2
      | .dup => .shuffle 1 [0, 0]
      | .dupX1 => .shuffle 2 [0, 1, 0]
      | .dupX2 => .shuffle 3 [0, 2, 1, 0]
      | .dup2 => .shuffle 2 [1, 0, 1, 0]
      | .dup2X1 => .shuffle 3 [1, 0, 2, 1, 0]
      | .dup2X2 => .shuffle 4 [1, 0, 3, 2, 1, 0]
      | .swap => .shuffle 2 [0, 1]
      | .ireturn | .freturn | .areturn | .athrow => .discard 1
      | .lreturn | .dreturn => .discard 2
      | .arraylength => .replace 1 (.unknown .int)
      | .monitorenter | .monitorexit => .discard 1
      | _ => .nothing

/-- The value that a constant loads. -/
def Constant.value : Constant → Value
  | int v => .int v
  | long v => .long v
  | float v => .float v
  | double v => .double v
  | string text => .string text
  | classOf _ => .unknownObject classClass
  | methodType _ => .unknownObject methodTypeClass
  | methodHandle _ _ _ => .unknownObject methodHandleClass

/-- The descriptor of an array of objects or arrays of the type named. -/
def arrayOf
    (name : String) :
    String :=
  if name.toList.head? = some '[' then "[" ++ name else "[L" ++ name ++ ";"

/-- The effect of a number or a type code. -/
def integerEffect
    (op : Opcode)
    (operand : Int32) :
    Effect :=
  match op with
  | .newarray =>
      match ArrayElement.ofCode? operand with
      | some e => .replace 1 (.unknownObject e.arrayDescriptor)
      | none => .refuse (.invalidArrayCode operand)
  | _ => .push (.int operand)

/-- The effect of a load or store. -/
def slotEffect
    (op : Opcode)
    (index : Nat) :
    Effect :=
  match op with
  | .iload | .fload | .aload => .load index false
  | .lload | .dload => .load index true
  | .istore | .fstore | .astore => .store index 1
  | .lstore | .dstore => .store index 2
  | _ => .refuse (.unsupported op)

/-- The effect of an instruction that names a type. -/
def typedEffect
    (op : Opcode)
    (name : String) :
    Effect :=
  match op with
  | .newObject => .create name
  | .anewarray => .replace 1 (.unknownObject (arrayOf name))
  | .checkcast => .replace 1 (.unknownObject name)
  | _ => .replace 1 (.unknown .int)

/-- The effect of an access to a field. -/
def fieldEffect
    (op : Opcode)
    (name descriptor : String) :
    Effect :=
  match op with
  | .getstatic => .readField true name descriptor
  | .getfield => .readField false name descriptor
  | .putstatic => .writeField true descriptor
  | _ => .writeField false descriptor

/-- Who receives a call of a method. -/
def receiverOf
    (op : Opcode)
    (owner name : String) :
    Receiver :=
  match op with
  | .invokestatic => .none
  | .invokespecial => if name = constructorName then .constructed owner else .object
  | _ => .object

/-- The effect of a jump, which takes none, one or two operands. -/
def jumpEffect : Opcode → Effect
  | .ifeq | .ifne | .iflt | .ifge | .ifgt | .ifle | .ifnull | .ifnonnull => .discard 1
  | .ifIcmpeq | .ifIcmpne | .ifIcmplt | .ifIcmpge | .ifIcmpgt | .ifIcmple | .ifAcmpeq
  | .ifAcmpne => .discard 2
  | .jsr => .refuse (.unsupported .jsr)
  | _ => .nothing

/-- The effect of an instruction whose opcode takes its operands. -/
def Record.effect : Record → Effect
  | bare op => op.bareEffect
  | integer op operand => integerEffect op operand
  | slot op index => slotEffect op index.toNat
  | increment index delta => .increment index.toNat delta
  | typed op name => typedEffect op name
  | field op _ name descriptor => fieldEffect op name descriptor
  | method op owner name descriptor _ => .call (receiverOf op owner name) descriptor
  | callSite _ descriptor => .call .none descriptor
  | jump op _ => jumpEffect op
  | load constant => .push constant.value
  | table _ _ _ _ => .discard 1
  | lookup _ _ => .discard 1
  | multiArray descriptor dimensions =>
      .replace dimensions.toNat (.unknownObject descriptor)
  | label _ => .nothing
  | frame _ => .nothing

end SlotFlow
