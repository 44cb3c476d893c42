import SlotFlow.Proofs.Machine.EffectAccount
import SlotFlow.Proofs.Machine.Reached

/-!
# Slots that instructions move

The specification of the virtual machine lists, instruction by instruction, how many
slots are popped and how many are pushed. The effects of instructions keep to that list.

Main definitions:

* `Motion`, `Opcode.motion`, `Record.motion`: the list of the specification;
* `Record.Executable`: instructions that a machine can be asked to execute.

Main statements:

* `effect_motion`: the effect of an instruction moves the slots that the list says.
-/

namespace SlotFlow

/-- Numbers of slots that are popped and pushed. -/
structure Motion where
  popped : Nat
  pushed : Nat
deriving DecidableEq

/--
The slots that an opcode moves, by the specification. Where they depend on operands,
see `Record.motion`.
-/
def Opcode.motion : Opcode → Motion
  | nop | iinc | goto | ret | returnVoid => ⟨0, 0⟩
  | aconstNull | iconstM1 | iconst0 | iconst1 | iconst2 | iconst3 | iconst4 | iconst5
  | fconst0 | fconst1 | fconst2 | bipush | sipush | iload | fload | aload | newObject
  | jsr => ⟨0, 1⟩
  | lconst0 | lconst1 | dconst0 | dconst1 | lload | dload => ⟨0, 2⟩
  | istore | fstore | astore | pop | ifeq | ifne | iflt | ifge | ifgt | ifle | ifnull
  | ifnonnull | tableswitch | lookupswitch | ireturn | freturn | areturn | athrow
  | monitorenter | monitorexit => ⟨1, 0⟩
  | lstore | dstore | pop2 | ifIcmpeq | ifIcmpne | ifIcmplt | ifIcmpge | ifIcmpgt
  | ifIcmple | ifAcmpeq | ifAcmpne | lreturn | dreturn => ⟨2, 0⟩
  | iastore | fastore | aastore | bastore | castore | sastore => ⟨3, 0⟩
  | lastore | dastore => ⟨4, 0⟩
  | ineg | fneg | i2f | f2i | i2b | i2c | i2s | newarray | anewarray | arraylength
  | checkcast | instanceof => ⟨1, 1⟩
  | i2l | i2d | f2l | f2d | dup => ⟨1, 2⟩
  | iaload | faload | aaload | baload | caload | saload | iadd | isub | imul | idiv | irem
  | ishl | ishr | iushr | iand | ior | ixor | fadd | fsub | fmul | fdiv | frem | fcmpl
  | fcmpg | l2i | l2f | d2i | d2f => ⟨2, 1⟩
  | laload | daload | lneg | dneg | l2d | d2l | swap => ⟨2, 2⟩
  | lshl | lshr | lushr => ⟨3, 2⟩
  | lcmp | dcmpl | dcmpg => ⟨4, 1⟩
  | ladd | lsub | lmul | ldiv | lrem | land | lor | lxor | dadd | dsub | dmul | ddiv
  | drem => ⟨4, 2⟩
  | dupX1 => ⟨2, 3⟩
  | dupX2 => ⟨3, 4⟩
  | dup2 => ⟨2, 4⟩
  | dup2X1 => ⟨3, 5⟩
  | dup2X2 => ⟨4, 6⟩
  | ldc | getstatic | putstatic | getfield | putfield | invokevirtual | invokespecial
  | invokestatic | invokeinterface | invokedynamic | multianewarray => ⟨0, 0⟩

/-- Slots that a constant takes on the stack. -/
def Constant.size : Constant → Nat
  | long _ | double _ => 2
  | _ => 1

/-- Slots of the value of a field. -/
def fieldSize
    (descriptor : String) :
    Nat :=
  ((FieldType.parse? descriptor).map FieldType.size).getD 0

/-- Slots of the arguments and of the result of a call. -/
def callMotion
    (descriptor : String) :
    Motion :=
  ((MethodDescriptor.parse? descriptor).map fun d =>
    ⟨d.argumentSize, d.resultSize⟩).getD ⟨0, 0⟩

namespace Record

/-- The slots that an instruction moves, by the specification. -/
def motion : Record → Motion
  | bare op | integer op _ | slot op _ | typed op _ | jump op _ => op.motion
  | increment _ _ => Opcode.iinc.motion
  | field op _ _ descriptor =>
      match op with
      | .getstatic => ⟨0, fieldSize descriptor⟩
      | .putstatic => ⟨fieldSize descriptor, 0⟩
      | .getfield => ⟨1, fieldSize descriptor⟩
      | _ => ⟨fieldSize descriptor + 1, 0⟩
  | method op _ _ descriptor _ =>
      match op with
      | .invokestatic => callMotion descriptor
      | _ => ⟨(callMotion descriptor).popped + 1, (callMotion descriptor).pushed⟩
  | callSite _ descriptor => callMotion descriptor
  | load constant => ⟨0, constant.size⟩
  | table _ _ _ _ => Opcode.tableswitch.motion
  | lookup _ _ => Opcode.lookupswitch.motion
  | multiArray _ dimensions => ⟨dimensions.toNat, 1⟩
  | label _ => ⟨0, 0⟩
  | frame _ => ⟨0, 0⟩

/-- The descriptor of a field or method can be read, and `newarray` has a type code. -/
def OperandsValid : Record → Prop
  | field _ _ _ descriptor => (FieldType.parse? descriptor).isSome = true
  | method _ _ _ descriptor _ => (MethodDescriptor.parse? descriptor).isSome = true
  | callSite _ descriptor => (MethodDescriptor.parse? descriptor).isSome = true
  | integer .newarray code => 4 ≤ code ∧ code ≤ 11
  | _ => True

/-- An instruction, none of subroutines, whose operands are those of its opcode. -/
structure Executable
    (r : Record)
    (op : Opcode) : Prop where
  opcode : r.opcode? = some op
  plain : op.isSubroutine = false
  fits : r.misfit? = none
  operands : r.OperandsValid

/-- The opcode of an instruction takes the operands that stand beside it. -/
theorem Executable.shape
    {r : Record}
    {op other : Opcode}
    {shape : Shape}
    (h : r.Executable op)
    (hr : r.operandShape? = some (other, shape)) :
    other.shape = shape :=
  shape_of_fits h.fits hr

end Record

/-- The effect moves the slots that the list of the specification says. -/
structure Effect.Moves
    (effect : Effect)
    (motion : Motion) : Prop where
  sound : effect.Sound
  popped : effect.popped = motion.popped
  pushed :
    ∀ f : Frame, motion.popped ≤ f.stack.length → (effect.slots f).length = motion.pushed

theorem resultSlots_length
    (type : FieldType) :
    (resultSlots (some type)).length = type.size := by
  cases type <;> rfl

theorem shuffle_length
    {cells : List Value}
    {count : Nat}
    {order : List Nat}
    (hcells : count ≤ cells.length)
    (horder : ∀ i ∈ order, i < count) :
    (order.filterMap fun i => (cells.take count)[i]?).length = order.length := by
  induction order with
  | nil =>
      rfl
  | cons i order ih =>
      have hi : i < (cells.take count).length := by
        have := horder i List.mem_cons_self
        rw [List.length_take]
        omega
      rw [List.filterMap_cons, List.getElem?_eq_getElem hi]
      simp only [List.length_cons]
      rw [ih fun j hj => horder j (List.mem_cons_of_mem i hj)]

theorem shuffle_moves
    {count : Nat}
    {order : List Nat}
    (horder : ∀ i ∈ order, i < count) :
    (Effect.shuffle count order).Moves ⟨count, order.length⟩ := by
  refine ⟨trivial, rfl, ?_⟩
  intro f hf
  rw [Effect.slots, List.length_reverse, List.length_map]
  exact shuffle_length hf horder

theorem bareEffect_moves
    {op : Opcode}
    (h : op.shape = .bare) :
    op.bareEffect.Moves op.motion := by
  cases op with
  | dup => exact shuffle_moves (by decide)
  | dupX1 => exact shuffle_moves (by decide)
  | dupX2 => exact shuffle_moves (by decide)
  | dup2 => exact shuffle_moves (by decide)
  | dup2X1 => exact shuffle_moves (by decide)
  | dup2X2 => exact shuffle_moves (by decide)
  | swap => exact shuffle_moves (by decide)
  | _ =>
      first
      | exact ⟨trivial, rfl, fun _ _ => rfl⟩
      | cases h

theorem integerEffect_moves
    {op : Opcode}
    {operand : Int32}
    (h : op.shape = .integer)
    (hcode : op = .newarray → (ArrayElement.ofCode? operand).isSome = true) :
    (integerEffect op operand).Moves op.motion := by
  cases op with
  | newarray =>
      obtain ⟨e, he⟩ := Option.isSome_iff_exists.1 (hcode rfl)
      rw [integerEffect, he]
      exact ⟨trivial, rfl, fun _ _ => rfl⟩
  | _ =>
      first
      | exact ⟨trivial, rfl, fun _ _ => rfl⟩
      | cases h

theorem slotEffect_moves
    {op : Opcode}
    {index : Nat}
    (h : op.shape = .slot)
    (hplain : op.isSubroutine = false) :
    (slotEffect op index).Moves op.motion := by
  cases op with
  | ret =>
      cases hplain
  | _ =>
      first
      | exact ⟨trivial, rfl, fun _ _ => rfl⟩
      | exact ⟨Nat.succ_pos _, rfl, fun _ _ => rfl⟩
      | cases h

theorem typedEffect_moves
    {op : Opcode}
    {name : String}
    (h : op.shape = .typed) :
    (typedEffect op name).Moves op.motion := by
  cases op <;>
    first
    | exact ⟨trivial, rfl, fun _ _ => rfl⟩
    | cases h

theorem jumpEffect_moves
    {op : Opcode}
    (h : op.shape = .jump)
    (hplain : op.isSubroutine = false) :
    (jumpEffect op).Moves op.motion := by
  cases op with
  | jsr =>
      cases hplain
  | _ =>
      first
      | exact ⟨trivial, rfl, fun _ _ => rfl⟩
      | cases h

/-- The type codes of `newarray` are the numbers from 4 to 11. -/
theorem ofCode_isSome
    {code : Int32}
    (hlow : 4 ≤ code)
    (hhigh : code ≤ 11) :
    (ArrayElement.ofCode? code).isSome = true := by
  have hlow : 4 ≤ code.toInt := Int32.le_iff_toInt_le.1 hlow
  have hhigh : code.toInt ≤ 11 := Int32.le_iff_toInt_le.1 hhigh
  have hcode : code = Int32.ofInt code.toInt := (Int32.ofInt_toInt code).symm
  have hcases :
      code.toInt = 4 ∨ code.toInt = 5 ∨ code.toInt = 6 ∨ code.toInt = 7 ∨ code.toInt = 8 ∨
        code.toInt = 9 ∨ code.toInt = 10 ∨ code.toInt = 11 := by
    omega
  rcases hcases with h | h | h | h | h | h | h | h
  all_goals
    rw [hcode, h]
    rfl

/-- What a field descriptor says of its value. -/
theorem fieldDescriptor_eq
    {descriptor : String}
    {type : FieldType}
    (h : FieldType.parse? descriptor = some type) :
    poppedSlots? descriptor = some type.size ∧ pushedType? descriptor = some (some type) ∧
      fieldSize descriptor = type.size := by
  have hmethod := not_isMethodDescriptor h
  simp [poppedSlots?, pushedType?, fieldSize, hmethod, h]

/-- What a method descriptor says of arguments and result. -/
theorem methodDescriptor_eq
    {descriptor : String}
    {d : MethodDescriptor}
    (h : MethodDescriptor.parse? descriptor = some d) :
    poppedSlots? descriptor = some d.argumentSize ∧ pushedType? descriptor = some d.result ∧
      callMotion descriptor = ⟨d.argumentSize, d.resultSize⟩ := by
  obtain ⟨hpopped, hpushed⟩ := slots_of_parse h
  refine ⟨hpopped, hpushed, ?_⟩
  simp [callMotion, h]

theorem fieldEffect_moves
    {op : Opcode}
    {owner name descriptor : String}
    (h : op.shape = .field)
    (hdescriptor : (FieldType.parse? descriptor).isSome = true) :
    (fieldEffect op name descriptor).Moves
      (Record.field op owner name descriptor).motion := by
  obtain ⟨type, htype⟩ := Option.isSome_iff_exists.1 hdescriptor
  obtain ⟨hpopped, hpushed, hsize⟩ := fieldDescriptor_eq htype
  have hslots := resultSlots_length type
  cases op with
  | getstatic =>
      exact ⟨by simp [fieldEffect, Effect.Sound, hpushed], rfl,
        by simp [fieldEffect, Effect.slots, Record.motion, hpushed, hsize, hslots]⟩
  | putstatic =>
      exact ⟨by simp [fieldEffect, Effect.Sound, hpopped],
        by simp [fieldEffect, Effect.popped, Record.motion, hpopped, hsize], fun _ _ => rfl⟩
  | getfield =>
      exact ⟨by simp [fieldEffect, Effect.Sound, hpushed], rfl,
        by simp [fieldEffect, Effect.slots, Record.motion, hpushed, hsize, hslots]⟩
  | putfield =>
      exact ⟨by simp [fieldEffect, Effect.Sound, hpopped],
        by simp [fieldEffect, Effect.popped, Record.motion, hpopped, hsize], fun _ _ => rfl⟩
  | _ =>
      cases h

/-- Calls pop arguments and receiver and push the result. -/
theorem call_moves
    {descriptor : String}
    (receiver : Receiver)
    (hdescriptor : (MethodDescriptor.parse? descriptor).isSome = true) :
    (Effect.call receiver descriptor).Moves
      ⟨(callMotion descriptor).popped + receiver.popped, (callMotion descriptor).pushed⟩ := by
  obtain ⟨d, hd⟩ := Option.isSome_iff_exists.1 hdescriptor
  obtain ⟨hpopped, hpushed, hmotion⟩ := methodDescriptor_eq hd
  refine ⟨?_, ?_, ?_⟩
  · simp [Effect.Sound, hpopped, hpushed]
  · simp [Effect.popped, hpopped, hmotion]
  · intro f _
    simp only [Effect.slots, hpushed, hmotion, Option.getD_some, MethodDescriptor.resultSize]
    cases d.result with
    | none =>
        rfl
    | some type =>
        exact resultSlots_length type

theorem methodEffect_moves
    {op : Opcode}
    {owner name descriptor : String}
    {interface : Bool}
    (h : op.shape = .method)
    (hdescriptor : (MethodDescriptor.parse? descriptor).isSome = true) :
    (Record.method op owner name descriptor interface).effect.Moves
      (Record.method op owner name descriptor interface).motion := by
  have hcall := call_moves (receiverOf op owner name) hdescriptor
  have hreceiver : op ≠ .invokestatic → (receiverOf op owner name).popped = 1 := by
    intro hop
    unfold receiverOf
    split
    · exact absurd rfl hop
    · split <;> rfl
    · rfl
  cases op with
  | invokestatic =>
      exact hcall
  | invokevirtual =>
      rwa [hreceiver (by decide)] at hcall
  | invokespecial =>
      rwa [hreceiver (by decide)] at hcall
  | invokeinterface =>
      rwa [hreceiver (by decide)] at hcall
  | _ =>
      cases h

theorem constant_moves
    (c : Constant) :
    (Effect.push c.value).Moves ⟨0, c.size⟩ := by
  cases c <;> exact ⟨trivial, rfl, fun _ _ => rfl⟩

/-- The effect of an instruction moves the slots that the list says. -/
theorem effect_motion
    {r : Record}
    {op : Opcode}
    (h : r.Executable op) :
    r.effect.Moves r.motion := by
  have hop := h.opcode
  have hplain := h.plain
  have hoperands := h.operands
  cases r with
  | bare op =>
      exact bareEffect_moves (h.shape rfl)
  | integer op operand =>
      cases hop
      apply integerEffect_moves (h.shape rfl)
      rintro rfl
      exact ofCode_isSome hoperands.1 hoperands.2
  | slot op index =>
      cases hop
      exact slotEffect_moves (h.shape rfl) hplain
  | increment index delta =>
      exact ⟨trivial, rfl, fun _ _ => rfl⟩
  | typed op name =>
      exact typedEffect_moves (h.shape rfl)
  | field op owner name descriptor =>
      exact fieldEffect_moves (h.shape rfl) hoperands
  | method op owner name descriptor interface =>
      exact methodEffect_moves (h.shape rfl) hoperands
  | callSite name descriptor =>
      exact call_moves .none hoperands
  | jump op target =>
      cases hop
      exact jumpEffect_moves (h.shape rfl) hplain
  | load c =>
      exact constant_moves c
  | table low high fallback targets =>
      exact ⟨trivial, rfl, fun _ _ => rfl⟩
  | lookup fallback entries =>
      exact ⟨trivial, rfl, fun _ _ => rfl⟩
  | multiArray descriptor dimensions =>
      exact ⟨trivial, rfl, fun _ _ => rfl⟩
  | label l =>
      cases hop
  | frame f =>
      cases hop

end SlotFlow
