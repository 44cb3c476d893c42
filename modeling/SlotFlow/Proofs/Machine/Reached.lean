import SlotFlow.Proofs.Descriptor
import SlotFlow.Proofs.Frame.Keeps

/-!
# Machines that runs reach

A run executes one record after the other, and may go on after one that failed.

Main definitions:

* `Effect.Brings`: the values that an effect brings along have a property;
* `Record.Loads`: the records that load a field;
* `Machine.Reached`: the machines that runs reach.

Main statements:

* `execute_keeps`: one record keeps every condition that all changes of a frame keep;
* `Reached.stable`: such a condition holds of every machine that is reached.
-/

namespace SlotFlow

/-- The values that an effect brings along have a property. -/
def Effect.Brings (P : Value → Prop) : Effect → Prop
  | push v => P v
  | replace _ v => P v
  | arithmetic _ signature => ∀ l, P (.ofLiteral signature.result l)
  | readField _ name descriptor =>
      ∀ type, pushedType? descriptor = some (some type) → P (Frame.loaded type (some name))
  | _ => True

/-- The instructions that push the value of a field, whose type is given. -/
inductive Record.Loads (name : String) (type : FieldType) : Record → Prop
  | getstatic
      {owner descriptor : String}
      (h : pushedType? descriptor = some (some type)) :
      Loads name type (.field .getstatic owner name descriptor)
  | getfield
      {owner descriptor : String}
      (h : pushedType? descriptor = some (some type)) :
      Loads name type (.field .getfield owner name descriptor)

namespace Machine

open SlotFlow.Frame (Stable)

variable {P : Value → Prop} {I : Frame → Prop}

theorem onFrame_keeps
    {α : Type}
    {Q : α → Prop}
    {act : FrameM α}
    (h : Keeps I Q act) :
    Keeps (fun m => I m.frame) Q (onFrame act) := by
  intro m hm
  exact h m.frame hm

theorem incremented_plain
    (folding : Bool)
    (v : Value)
    (delta : Int32) :
    (incremented folding v delta).Plain := by
  unfold incremented
  split
  · exact ⟨.int _, rfl⟩
  · exact ⟨.unknown _, rfl⟩

theorem completeConstruction_keeps
    (hI : Stable P I)
    (v : Value)
    (callOwner : String) :
    Keeps (fun m => I m.frame) (fun _ => True) (completeConstruction v callOwner) := by
  intro m hm
  unfold completeConstruction
  split
  · exact ⟨hI.replaced v hm (hI.plain ⟨.unknownObject _, rfl⟩), fun _ _ => trivial⟩
  · exact ⟨hm, fun _ _ => trivial⟩

theorem popReceiver_keeps
    (hI : Stable P I)
    (receiver : Receiver) :
    Keeps (fun m => I m.frame) (fun _ => True) (popReceiver receiver) := by
  cases receiver with
  | none =>
      exact keeps_pure trivial
  | object =>
      apply (onFrame_keeps hI.pop).bind
      intro v _
      exact keeps_pure trivial
  | constructed owner =>
      apply (onFrame_keeps hI.pop).bind
      intro v _
      exact completeConstruction_keeps hI v owner

theorem create_keeps
    (hI : Stable P I)
    (type : String) :
    Keeps (fun m => I m.frame) (fun _ => True) (create type) := by
  intro m hm
  unfold create
  split
  · exact onFrame_keeps (hI.push (hI.plain ⟨.uninitialized _, rfl⟩)) _ hm
  · exact onFrame_keeps (hI.push (hI.plain ⟨.uninitialized _, rfl⟩)) _ hm

/-- Carrying an effect out keeps what every change of a frame keeps. -/
theorem perform_keeps
    (hI : Stable P I)
    {effect : Effect}
    (h : effect.Brings P) :
    Keeps (fun m => I m.frame) (fun _ => True) (perform effect) := by
  cases effect with
  | nothing =>
      exact keeps_pure trivial
  | push v =>
      exact onFrame_keeps (hI.pushSized h)
  | discard slots =>
      exact onFrame_keeps (hI.popMany slots)
  | replace slots v =>
      apply onFrame_keeps
      apply (hI.popMany slots).bind
      intro _ _
      exact hI.pushSized h
  | load index wide =>
      apply onFrame_keeps
      apply (hI.getLocal index).bind
      intro v hv
      apply (hI.push hv).bind
      intro _ _
      split
      · exact hI.push (hI.plain ⟨.top, rfl⟩)
      · exact keeps_pure trivial
  | store index slots =>
      apply onFrame_keeps
      apply (hI.popWide slots).bind
      intro v hv
      exact hI.setLocal index hv
  | increment index delta =>
      intro m
      apply onFrame_keeps
      apply (hI.getLocal index).bind
      intro v _
      exact hI.setLocal index (hI.plain (incremented_plain m.folding v delta))
  | element =>
      apply onFrame_keeps
      apply hI.pop.bind
      intro _ _
      apply hI.pop.bind
      intro v _
      exact hI.push (hI.plain ⟨.unknown _, rfl⟩)
  | shuffle slots order =>
      apply onFrame_keeps
      apply (hI.popCells slots).bind
      intro cells hcells
      apply hI.pushCells
      intro v hv
      obtain ⟨i, _, hi⟩ := List.mem_filterMap.1 hv
      exact hcells v (List.mem_of_getElem? hi)
  | arithmetic op signature =>
      intro m
      exact onFrame_keeps (hI.arithmetic m.folding op signature) m
  | readField static name descriptor =>
      apply onFrame_keeps
      cases static with
      | true =>
          exact hI.pushDescriptor h
      | false =>
          apply hI.pop.bind
          intro _ _
          exact hI.pushDescriptor h
  | writeField static descriptor =>
      apply onFrame_keeps
      apply (hI.popDescriptor descriptor).bind
      intro _ _
      cases static with
      | true =>
          exact keeps_pure trivial
      | false =>
          exact hI.popMany 1
  | call receiver descriptor =>
      apply (onFrame_keeps (hI.popDescriptor descriptor)).bind
      intro _ _
      apply (popReceiver_keeps hI receiver).bind
      intro _ _
      exact onFrame_keeps (hI.pushDescriptor fun _ _ => hI.plain ⟨.unknown _, rfl⟩)
  | create type =>
      exact create_keeps hI type
  | refuse fault =>
      exact keeps_throw fault

theorem constant_value_made
    (c : Constant) :
    c.value.Made := by
  refine ⟨⟨Value.built_iff.2 ?_, ?_⟩, ?_⟩ <;> cases c <;> rfl

section Brings

variable (made : ∀ {v : Value}, v.Made → P v)

include made

theorem bareEffect_brings
    (op : Opcode) :
    op.bareEffect.Brings P := by
  cases op <;>
    first
    | trivial
    | exact made ⟨⟨Value.built_iff.2 rfl, rfl⟩, rfl⟩
    | exact fun l => made ⟨⟨.ofLiteral _ l, rfl⟩, rfl⟩

theorem typedEffect_brings
    (op : Opcode)
    (name : String) :
    (typedEffect op name).Brings P := by
  unfold typedEffect
  split
  · trivial
  · exact made ⟨⟨.unknownObject _, rfl⟩, rfl⟩
  · exact made ⟨⟨.unknownObject _, rfl⟩, rfl⟩
  · exact made ⟨⟨.unknown _, rfl⟩, rfl⟩

theorem integerEffect_brings
    (op : Opcode)
    (operand : Int32) :
    (integerEffect op operand).Brings P := by
  unfold integerEffect
  split
  · split
    · exact made ⟨⟨.unknownObject _, rfl⟩, rfl⟩
    · trivial
  · exact made ⟨⟨.int _, rfl⟩, rfl⟩

/-- A record brings values along that it makes, and what it loads from a field. -/
theorem effect_brings
    (r : Record)
    (hloads : ∀ name type, r.Loads name type → P (Frame.loaded type (some name))) :
    r.effect.Brings P := by
  cases r with
  | bare op =>
      exact bareEffect_brings made op
  | integer op operand =>
      exact integerEffect_brings made op operand
  | slot op index =>
      change (slotEffect op index.toNat).Brings P
      unfold slotEffect
      split <;> trivial
  | typed op name =>
      exact typedEffect_brings made op name
  | field op owner name descriptor =>
      change (fieldEffect op name descriptor).Brings P
      unfold fieldEffect
      split
      · intro type htype
        exact hloads name type (.getstatic htype)
      · intro type htype
        exact hloads name type (.getfield htype)
      · trivial
      · trivial
  | jump op _ =>
      change (jumpEffect op).Brings P
      unfold jumpEffect
      split <;> trivial
  | load c =>
      exact made (constant_value_made c)
  | multiArray descriptor dimensions =>
      exact made ⟨⟨.unknownObject descriptor, rfl⟩, rfl⟩
  | _ =>
      trivial

end Brings

/-- The values that a record brings along are built by a constructor. -/
theorem effect_built
    (r : Record) :
    r.effect.Brings Value.Built :=
  effect_brings (fun hmade => hmade.built) r fun _ type _ => Stable.loaded_built type _

theorem executeReachable_keeps
    (hI : Stable P I)
    (op : Opcode)
    {effect : Effect}
    (h : effect.Brings P) :
    Keeps (fun m => I m.frame) (fun _ => True) (executeReachable op effect) := by
  intro m hm
  refine ⟨?_, fun _ _ => trivial⟩
  have hstep := (perform_keeps hI h (m.executing op) (hI.executing op hm)).1
  unfold executeReachable
  rcases hperform : perform effect (m.executing op) with ⟨_ | _, after⟩
  · rw [hperform] at hstep
    exact hstep
  · rw [hperform] at hstep
    simp only
    split
    · exact hI.left hstep
    · exact hstep

theorem executeInstruction_keeps
    (hI : Stable P I)
    (op : Opcode)
    {r : Record}
    (h : r.effect.Brings P) :
    Keeps (fun m => I m.frame) (fun _ => True) (executeInstruction op r) := by
  unfold executeInstruction
  split
  · exact keeps_throw _
  · split
    · exact keeps_throw _
    · intro m hm
      by_cases hreachable : m.frame.reachable = true
      · simp only [hreachable, if_true]
        exact executeReachable_keeps hI op h m hm
      · simp only [hreachable]
        exact ⟨hm, fun _ _ => trivial⟩

/-- A record with an opcode is executed as an instruction. -/
theorem execute_of_opcode
    {r : Record}
    {op : Opcode}
    (h : r.opcode? = some op) :
    execute r = executeInstruction op r := by
  cases r <;> cases h <;> rfl

/-- One record keeps what every change of a frame keeps. -/
theorem execute_keeps
    (hI : Stable P I)
    {r : Record}
    (h : r.effect.Brings P) :
    Keeps (fun m => I m.frame) (fun _ => True) (execute r) := by
  cases r with
  | label l =>
      intro m hm
      exact ⟨hm, fun _ _ => trivial⟩
  | frame f =>
      rw [execute]
      split
      · exact onFrame_keeps (hI.resetTo f.locals f.stack)
      · exact keeps_throw _
  | _ =>
      exact executeInstruction_keeps hI _ h

/-- The machines that runs reach, also past records that failed. -/
inductive Reached : Machine → Prop
  | start
      {method : Method}
      {settings : Settings}
      {m : Machine}
      (h : start method settings = .ok m) :
      Reached m
  | step
      {m : Machine}
      (h : Reached m)
      (r : Record) :
      Reached (execute r m).2

theorem writeParameters_stable
    (hI : Stable P I)
    {f : Frame}
    (hf : I f)
    (hreachable : f.reachable = true)
    (index : Nat)
    (types : List FieldType) :
    I (f.writeParameters index types) := by
  induction types generalizing f index with
  | nil =>
      exact hf
  | cons type types ih =>
      exact ih (hI.written index hf hreachable (hI.plain ⟨.unknown _, rfl⟩)) hreachable _

theorem entry_stable
    (hI : Stable P I)
    {method : Method}
    {limit : Option Nat}
    {f : Frame}
    (h : Frame.entry method limit = .ok f) :
    I f := by
  have hempty := hI.empty limit
  have hreceiver : P (Frame.receiver method) := by
    unfold Frame.receiver
    split
    · exact hI.plain ⟨.uninitializedThis, rfl⟩
    · exact hI.plain ⟨.unknownObject _, rfl⟩
  unfold Frame.entry at h
  split at h
  · cases h
  · split at h
    · cases h
      exact writeParameters_stable hI hempty rfl 0 _
    · cases h
      exact writeParameters_stable hI (hI.written 0 hempty rfl hreceiver) rfl 1 _

theorem start_stable
    (hI : Stable P I)
    {method : Method}
    {settings : Settings}
    {m : Machine}
    (h : start method settings = .ok m) :
    I m.frame := by
  unfold Machine.start at h
  cases hentry : Frame.entry method settings.maxStack with
  | error e =>
      rw [hentry] at h
      cases h
  | ok f =>
      rw [hentry] at h
      cases h
      exact entry_stable hI hentry

/-- What every change of a frame keeps holds of every machine that is reached. -/
theorem Reached.stable
    (hI : Stable Value.Built I)
    {m : Machine}
    (h : Reached m) :
    I m.frame := by
  induction h with
  | start h =>
      exact start_stable hI h
  | step _ r ih =>
      exact (execute_keeps hI (effect_built r) _ ih).1

/-- A static method without parameters starts with nothing in its frame. -/
theorem start_static
    (owner name : String)
    (settings : Settings) :
    start ⟨owner, name, "()V", true⟩ settings =
      .ok ⟨Frame.empty settings.maxStack, owner, settings.folding, [], [], 0⟩ := by
  rw [start, Frame.entry, MethodDescriptor.parse_empty]
  rfl

end Machine
end SlotFlow
