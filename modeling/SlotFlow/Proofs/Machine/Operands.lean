import SlotFlow.Proofs.Frame.Paired
import SlotFlow.Proofs.Machine.Motion

/-!
# Operands that instructions demand

The specification of the virtual machine lists, instruction by instruction, the types of
the operands on the stack. Instructions that copy or drop values whatever they are have
several forms, by the slots that the values take.

Main definitions:

* `Operand`: what can be demanded of one operand;
* `Opcode.forms`, `Record.forms`: the list of the specification, top first;
* `Holds`: stacks that hold operands at their top;
* `Record.Typed`: frames that hold what a record demands.

Main statements:

* `Holds.slots_eq`: the operands at the top of a stack are whole values;
* `form_popped`: operands take the slots that an instruction pops.
-/

namespace SlotFlow

/-- What the specification demands of one operand. -/
inductive Operand where
  | int
  | float
  | long
  | double
  | reference
  /-- An array whose elements are references, or null. -/
  | references
  /-- Any value that takes one slot. -/
  | narrow
  /-- Any value that takes two slots. -/
  | broad
deriving DecidableEq

/-- Null, an object, or one that is not initialized. -/
def Category.isReference : Category → Bool
  | null | object _ | uninitializedThis | uninitialized _ => true
  | _ => false

/-- Null, or an object that is no array of primitive values. -/
def Category.mayHoldReferences : Category → Bool
  | null => true
  | object name => ArrayElement.all.all fun e => e.arrayDescriptor ≠ name
  | _ => false

namespace Operand

/-- Whether a value of the category is what is demanded. -/
def accepts : Operand → Category → Bool
  | int, c => c = .int
  | float, c => c = .float
  | long, c => c = .long
  | double, c => c = .double
  | reference, c => c.isReference
  | references, c => c.mayHoldReferences
  | narrow, c => c.slot = .single
  | broad, c => c.isWide

/-- Whether the operand takes two slots. -/
def isWide : Operand → Bool
  | long | double | broad => true
  | _ => false

/-- The slots of the operand, top first. -/
def slots
    (o : Operand) :
    List Slot :=
  if o.isWide then [.empty, .wide] else [.single]

/-- The operand that holds a value of a type. -/
def ofFieldType : FieldType → Operand
  | .boolean | .byte | .char | .short | .int => int
  | .float => float
  | .long => long
  | .double => double
  | .object _ | .array _ => reference

end Operand

/--
The operands of an opcode by the specification, top first, in each of its forms. Where
they depend on what stands beside the opcode, see `Record.forms`.
-/
def Opcode.forms : Opcode → List (List Operand)
  | istore | ineg | i2l | i2f | i2d | i2b | i2c | i2s | ifeq | ifne | iflt | ifge | ifgt
  | ifle | tableswitch | lookupswitch | ireturn | newarray | anewarray => [[.int]]
  | lstore | lneg | l2i | l2f | l2d | lreturn => [[.long]]
  | fstore | fneg | f2i | f2l | f2d | freturn => [[.float]]
  | dstore | dneg | d2i | d2l | d2f | dreturn => [[.double]]
  | astore | ifnull | ifnonnull | areturn | athrow | arraylength | checkcast | instanceof
  | monitorenter | monitorexit => [[.reference]]
  | iadd | isub | imul | idiv | irem | ishl | ishr | iushr | iand | ior | ixor | ifIcmpeq
  | ifIcmpne | ifIcmplt | ifIcmpge | ifIcmpgt | ifIcmple => [[.int, .int]]
  | ladd | lsub | lmul | ldiv | lrem | land | lor | lxor | lcmp => [[.long, .long]]
  | lshl | lshr | lushr => [[.int, .long]]
  | fadd | fsub | fmul | fdiv | frem | fcmpl | fcmpg => [[.float, .float]]
  | dadd | dsub | dmul | ddiv | drem | dcmpl | dcmpg => [[.double, .double]]
  | ifAcmpeq | ifAcmpne => [[.reference, .reference]]
  | iaload | laload | faload | daload | baload | caload | saload => [[.int, .reference]]
  | aaload => [[.int, .references]]
  | iastore | bastore | castore | sastore => [[.int, .int, .reference]]
  | lastore => [[.long, .int, .reference]]
  | fastore => [[.float, .int, .reference]]
  | dastore => [[.double, .int, .reference]]
  | aastore => [[.reference, .int, .reference]]
  | pop | dup => [[.narrow]]
  | dupX1 | swap => [[.narrow, .narrow]]
  | pop2 | dup2 => [[.narrow, .narrow], [.broad]]
  | dupX2 => [[.narrow, .narrow, .narrow], [.narrow, .broad]]
  | dup2X1 => [[.narrow, .narrow, .narrow], [.broad, .narrow]]
  | dup2X2 =>
      [[.narrow, .narrow, .narrow, .narrow], [.broad, .narrow, .narrow],
        [.narrow, .narrow, .broad], [.broad, .broad]]
  | _ => [[]]

/-- The operand that holds the value of a field. -/
def fieldOperands
    (descriptor : String) :
    List Operand :=
  ((FieldType.parse? descriptor).map Operand.ofFieldType).toList

/-- The operands that hold the arguments of a call; the last argument is the top. -/
def callOperands
    (descriptor : String) :
    List Operand :=
  ((MethodDescriptor.parse? descriptor).map fun d =>
    (d.parameters.map Operand.ofFieldType).reverse).getD []

/-- What a load demands of the local that it names. -/
def Opcode.loaded? : Opcode → Option Operand
  | iload => some .int
  | lload => some .long
  | fload => some .float
  | dload => some .double
  | aload => some .reference
  | _ => none

namespace Record

/-- The operands of a record by the specification, top first, in each of its forms. -/
def forms : Record → List (List Operand)
  | bare op | integer op _ | slot op _ | typed op _ | jump op _ => op.forms
  | field op _ _ descriptor =>
      match op with
      | .getstatic => [[]]
      | .putstatic => [fieldOperands descriptor]
      | .getfield => [[.reference]]
      | _ => [fieldOperands descriptor ++ [.reference]]
  | method op _ _ descriptor _ =>
      match op with
      | .invokestatic => [callOperands descriptor]
      | _ => [callOperands descriptor ++ [.reference]]
  | callSite _ descriptor => [callOperands descriptor]
  | table _ _ _ _ => Opcode.tableswitch.forms
  | lookup _ _ => Opcode.lookupswitch.forms
  | multiArray _ dimensions => [List.replicate dimensions.toNat .int]
  | increment _ _ => [[]]
  | load _ => [[]]
  | label _ => [[]]
  | frame _ => [[]]

/-- The local that a load names and what is demanded of it. -/
def loaded? : Record → Option (Nat × Operand)
  | slot op index => op.loaded?.map fun o => (index.toNat, o)
  | _ => none

end Record

/-- Stacks that hold operands at their top, each with its second half if it has one. -/
inductive Holds : List Operand → List Value → Prop
  | nil (stack : List Value) : Holds [] stack
  | one
      {o : Operand}
      {os : List Operand}
      {v : Value}
      {stack : List Value}
      (hwide : o.isWide = false)
      (hv : o.accepts v.category = true)
      (hrest : Holds os stack) :
      Holds (o :: os) (v :: stack)
  | two
      {o : Operand}
      {os : List Operand}
      {t v : Value}
      {stack : List Value}
      (hwide : o.isWide = true)
      (ht : t.isTop = true)
      (hv : o.accepts v.category = true)
      (hrest : Holds os stack) :
      Holds (o :: os) (t :: v :: stack)

/-- Frames that hold the operands and the local that a record demands. -/
structure Record.Typed
    (r : Record)
    (f : Frame) : Prop where
  operands : ∃ form ∈ r.forms, Holds form f.stack
  loaded :
    ∀ index o, r.loaded? = some (index, o) →
      o.accepts (Locals.read f.locals index).category = true

namespace Operand

variable {o : Operand} {c : Category}

theorem slots_of_narrow
    (h : o.isWide = false) :
    o.slots = [.single] := by
  rw [slots, h]
  rfl

theorem slots_of_wide
    (h : o.isWide = true) :
    o.slots = [.empty, .wide] := by
  rw [slots, h]
  rfl

/-- What is accepted takes the slots of what is demanded. -/
theorem slot_of_accepts
    (h : o.accepts c = true) :
    c.slot = if o.isWide then .wide else .single := by
  cases o <;> cases c <;> first | rfl | cases h

end Operand

namespace Holds

variable {o : Operand} {os : List Operand} {stack : List Value}

/-- The operands at the top of a stack are whole values, and the rest is below them. -/
theorem slots_eq
    (h : Holds os stack) :
    stack.map Value.slot =
      os.flatMap Operand.slots ++
        (stack.drop (os.flatMap Operand.slots).length).map Value.slot := by
  induction h with
  | nil stack =>
      rfl
  | @one o os v stack hwide hv hrest ih =>
      have hslot : v.slot = .single := by
        rw [Value.slot, Operand.slot_of_accepts hv, hwide]
        rfl
      rw [List.map_cons, hslot, ih, List.flatMap_cons, Operand.slots_of_narrow hwide]
      rfl
  | @two o os t v stack hwide ht hv hrest ih =>
      have hslot : v.slot = .wide := by
        rw [Value.slot, Operand.slot_of_accepts hv, hwide]
        rfl
      rw [List.map_cons, List.map_cons, Value.slot_eq_empty.2 ht, hslot, ih,
        List.flatMap_cons, Operand.slots_of_wide hwide]
      rfl

/-- There is a slot for every slot of the operands. -/
theorem length_le
    (h : Holds os stack) :
    (os.flatMap Operand.slots).length ≤ stack.length := by
  have hlength := congrArg List.length h.slots_eq
  rw [List.length_map, List.length_append] at hlength
  omega

/-- The first operand is the deepest slot of its own. -/
theorem head
    (h : Holds (o :: os) stack) :
    o.accepts (Locals.read stack (o.slots.length - 1)).category = true := by
  cases h with
  | one hwide hv _ =>
      rw [Operand.slots_of_narrow hwide]
      exact hv
  | two hwide _ hv _ =>
      rw [Operand.slots_of_wide hwide]
      exact hv

/-- The other operands are below the first. -/
theorem tail
    (h : Holds (o :: os) stack) :
    Holds os (stack.drop o.slots.length) := by
  cases h with
  | one hwide _ hrest =>
      rw [Operand.slots_of_narrow hwide]
      exact hrest
  | two hwide _ _ hrest =>
      rw [Operand.slots_of_wide hwide]
      exact hrest

end Holds

theorem Opcode.forms_popped
    (op : Opcode) :
    (op.forms.all fun form => (form.flatMap Operand.slots).length = op.motion.popped) =
      true := by
  cases op <;> rfl

theorem Operand.slots_ofFieldType
    (type : FieldType) :
    (Operand.ofFieldType type).slots.length = type.size := by
  cases type <;> rfl

theorem fieldOperands_popped
    {descriptor : String}
    (h : (FieldType.parse? descriptor).isSome = true) :
    ((fieldOperands descriptor).flatMap Operand.slots).length = fieldSize descriptor := by
  obtain ⟨type, htype⟩ := Option.isSome_iff_exists.1 h
  have hslots := Operand.slots_ofFieldType type
  simp [fieldOperands, fieldSize, htype, hslots]

theorem callOperands_popped
    {descriptor : String}
    (h : (MethodDescriptor.parse? descriptor).isSome = true) :
    ((callOperands descriptor).flatMap Operand.slots).length =
      (callMotion descriptor).popped := by
  obtain ⟨d, hd⟩ := Option.isSome_iff_exists.1 h
  have hslots (types : List FieldType) :
      ((types.map Operand.ofFieldType).reverse.flatMap Operand.slots).length =
        (types.map FieldType.size).foldr (· + ·) 0 := by
    induction types with
    | nil =>
        rfl
    | cons type types ih =>
        have hsize := Operand.slots_ofFieldType type
        simp only [List.map_cons, List.reverse_cons, List.flatMap_append, List.length_append,
          List.flatMap_singleton, List.foldr_cons]
        omega
  simp only [callOperands, callMotion, hd, Option.map_some, Option.getD_some]
  exact hslots d.parameters

theorem fieldForms_popped
    {op : Opcode}
    {owner name descriptor : String}
    {form : List Operand}
    (h : op.shape = .field)
    (hdescriptor : (FieldType.parse? descriptor).isSome = true)
    (hform : form ∈ (Record.field op owner name descriptor).forms) :
    (form.flatMap Operand.slots).length =
      (Record.field op owner name descriptor).motion.popped := by
  have hfield := fieldOperands_popped hdescriptor
  cases op with
  | getstatic =>
      cases List.mem_singleton.1 hform
      rfl
  | putstatic =>
      cases List.mem_singleton.1 hform
      exact hfield
  | getfield =>
      cases List.mem_singleton.1 hform
      rfl
  | putfield =>
      cases List.mem_singleton.1 hform
      rw [List.flatMap_append, List.length_append, hfield]
      rfl
  | _ =>
      cases h

theorem methodForms_popped
    {op : Opcode}
    {owner name descriptor : String}
    {interface : Bool}
    {form : List Operand}
    (h : op.shape = .method)
    (hdescriptor : (MethodDescriptor.parse? descriptor).isSome = true)
    (hform : form ∈ (Record.method op owner name descriptor interface).forms) :
    (form.flatMap Operand.slots).length =
      (Record.method op owner name descriptor interface).motion.popped := by
  have hcall := callOperands_popped hdescriptor
  cases op with
  | invokestatic =>
      cases List.mem_singleton.1 hform
      exact hcall
  | invokevirtual | invokespecial | invokeinterface =>
      cases List.mem_singleton.1 hform
      rw [List.flatMap_append, List.length_append, hcall]
      rfl
  | _ =>
      cases h

/-- Operands take the slots that the instruction pops. -/
theorem form_popped
    {r : Record}
    {op : Opcode}
    {form : List Operand}
    (hr : r.Executable op)
    (hform : form ∈ r.forms) :
    (form.flatMap Operand.slots).length = r.motion.popped := by
  have hopcode (other : Opcode) (h : form ∈ other.forms) :
      (form.flatMap Operand.slots).length = other.motion.popped := by
    have hall := List.all_eq_true.1 other.forms_popped form h
    exact of_decide_eq_true hall
  have hoperands := hr.operands
  cases r with
  | field other owner name descriptor =>
      exact fieldForms_popped (hr.shape rfl) hoperands hform
  | method other owner name descriptor interface =>
      exact methodForms_popped (hr.shape rfl) hoperands hform
  | callSite name descriptor =>
      cases List.mem_singleton.1 hform
      exact callOperands_popped hoperands
  | multiArray descriptor dimensions =>
      cases List.mem_singleton.1 hform
      have hslots : Operand.int.slots.length = 1 := rfl
      simp [List.length_flatMap, hslots, Record.motion]
  | bare other =>
      exact hopcode other hform
  | integer other operand =>
      exact hopcode other hform
  | slot other index =>
      exact hopcode other hform
  | typed other name =>
      exact hopcode other hform
  | jump other target =>
      exact hopcode other hform
  | table low high fallback targets =>
      exact hopcode .tableswitch hform
  | lookup fallback entries =>
      exact hopcode .lookupswitch hform
  | increment | load | label | frame =>
      cases List.mem_singleton.1 hform
      rfl

end SlotFlow
