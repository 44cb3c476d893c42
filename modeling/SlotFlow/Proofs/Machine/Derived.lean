import Mathlib.Data.List.Forall2
import SlotFlow.Proofs.Frame.Locals
import SlotFlow.Proofs.Machine.Execution
import SlotFlow.Proofs.Machine.Performed

/-!
# Results that come from no field

Loads, stores, shuffles and reads of fields put values where they are needed, with the field
that they come from. All other instructions make their results, or leave a slot as it was.

Main definitions:

* `copying`: the opcodes that copy values or read them from a field;
* `Value.KeptOrMade`: a slot that is as it was, or holds a value from no field;
* `Frame.Derived`: frames of which one has results in place of slots of the other.

Main statements:

* `perform_derived`: what the effects leave that do not copy;
* `execute_derived`: what the instructions leave that do not copy.
-/

namespace SlotFlow

/-- The opcodes that copy values or read them from a field. -/
def copying : List Opcode :=
  [.iload, .lload, .fload, .dload, .aload, .istore, .lstore, .fstore, .dstore, .astore, .dup,
    .dupX1, .dupX2, .dup2, .dup2X1, .dup2X2, .swap, .getstatic, .getfield]

/-- Whether an effect copies values or reads them from a field. -/
def Effect.copies : Effect → Bool
  | load _ _ => true
  | store _ _ => true
  | shuffle _ _ => true
  | readField _ _ _ => true
  | _ => false

theorem Record.Loads.copies
    {r : Record}
    {name : String}
    {type : FieldType}
    (h : r.Loads name type) :
    ∃ op ∈ copying, r.opcode? = some op := by
  cases h with
  | getstatic =>
      exact ⟨.getstatic, by decide, rfl⟩
  | getfield =>
      exact ⟨.getfield, by decide, rfl⟩

theorem copies_bareEffect
    {op : Opcode}
    (h : op ∉ copying) :
    op.bareEffect.copies = false := by
  have hall : ∀ op ∈ Opcode.all, op ∉ copying → op.bareEffect.copies = false := by
    decide +kernel
  exact hall op op.mem_all h

/-- The effects of all other opcodes do not copy. -/
theorem copies_effect
    {r : Record}
    {op : Opcode}
    (hop : r.opcode? = some op)
    (h : op ∉ copying) :
    r.effect.copies = false := by
  cases r with
  | bare op =>
      cases hop
      exact copies_bareEffect h
  | integer op operand =>
      change (integerEffect op operand).copies = false
      unfold integerEffect
      split
      · split <;> rfl
      · rfl
  | slot op index =>
      cases hop
      change (slotEffect op index.toNat).copies = false
      unfold slotEffect
      split <;> first | exact absurd (by decide) h | rfl
  | typed op name =>
      change (typedEffect op name).copies = false
      unfold typedEffect
      split <;> rfl
  | field op owner name descriptor =>
      cases hop
      change (fieldEffect op name descriptor).copies = false
      unfold fieldEffect
      split <;> first | exact absurd (by decide) h | rfl
  | jump op target =>
      change (jumpEffect op).copies = false
      unfold jumpEffect
      split <;> rfl
  | label | frame =>
      cases hop
  | _ =>
      rfl

/-- The slot is as it was, or holds a value that comes from no field. -/
def Value.KeptOrMade
    (old new : Value) :
    Prop :=
  new = old ∨ new.provenance = none

namespace Frame

open SlotFlow.Value (KeptOrMade)

variable {f g : Frame} {popped : Nat} {cells : List Value}

/-- Results that come from no field are in place of slots, and all else is as it was or made. -/
structure Derived
    (f : Frame)
    (popped : Nat)
    (g : Frame) : Prop where
  locals : ∀ i, KeptOrMade (Locals.read f.locals i) (Locals.read g.locals i)
  stack :
    ∃ results kept, g.stack = results ++ kept ∧ (∀ v ∈ results, v.provenance = none) ∧
      List.Forall₂ KeptOrMade (f.stack.drop popped) kept

theorem Exchanged.derived
    (h : Exchanged f popped cells g)
    (hcells : ∀ v ∈ cells, v.provenance = none) :
    f.Derived popped g where
  locals i := by
    rw [h.locals]
    exact .inl rfl
  stack := by
    refine ⟨cells, f.stack.drop popped, h.stack, hcells, ?_⟩
    exact List.forall₂_same.2 fun _ _ => .inl rfl

theorem untagged_loadedCells
    (type : Option FieldType) :
    ∀ v ∈ loadedCells none type, v.provenance = none := by
  cases type with
  | none =>
      intro v hv
      cases hv
  | some type =>
      exact Value.untagged_cells rfl

end Frame

namespace Machine

open SlotFlow.Value (KeptOrMade)

variable {m n : Machine}

theorem incremented_untagged
    (folding : Bool)
    (v : Value)
    (delta : Int32) :
    (incremented folding v delta).provenance = none :=
  (incremented_plain folding v delta).untagged

/-- What a call makes of a slot comes from no field. -/
theorem change_keptOrMade
    (m : Machine)
    (stack : List Value)
    (receiver : Receiver)
    (v : Value) :
    KeptOrMade v (receiver.change m stack v) := by
  rcases change_eq_or m stack receiver v with hkept | ⟨_, type, hmade⟩
  · exact .inl hkept
  · rw [hmade]
    exact .inr rfl

theorem call_derived
    {receiver : Receiver}
    {descriptor : String}
    (h : perform (.call receiver descriptor) m = (.ok (), n)) :
    m.frame.Derived (Effect.call receiver descriptor).popped n.frame := by
  obtain ⟨count, type, hcount, _, _, hlocals, hstack⟩ := perform_call_eq_ok h
  rw [Effect.popped, hcount, Option.getD_some]
  constructor
  · intro i
    rw [hlocals, Locals.read, Locals.read, List.getElem?_map]
    cases m.frame.locals[i]? with
    | none =>
        exact .inl rfl
    | some v =>
        exact change_keptOrMade m _ receiver v
  · refine ⟨_, _, hstack, Frame.untagged_loadedCells type, ?_⟩
    rw [List.forall₂_map_right_iff]
    exact List.forall₂_same.2 fun v _ => change_keptOrMade m _ receiver v

theorem increment_derived
    {index : Nat}
    {delta : Int32}
    (h : perform (.increment index delta) m = (.ok (), n)) :
    m.frame.Derived 0 n.frame ∧ (Locals.read n.frame.locals index).provenance = none := by
  rw [perform] at h
  obtain ⟨f, hact, rfl⟩ := onFrame_eq_ok h
  obtain ⟨v, g, hget, hset⟩ := exists_of_bind_eq_ok hact
  obtain ⟨_, hread⟩ := Frame.getLocal_eq_ok hget
  obtain rfl := Frame.setLocal_eq_ok hset
  have hmade := incremented_untagged m.folding v delta
  refine ⟨⟨?_, [], g.stack, rfl, List.forall_mem_nil _, ?_⟩, ?_⟩
  · intro i
    rw [withFrame_frame, Frame.writeLocal, Locals.read_write, hread.locals]
    split
    · exact .inr hmade
    · split
      · exact .inr rfl
      · split
        · exact .inr rfl
        · exact .inl rfl
  · rw [hread.stack]
    exact List.forall₂_same.2 fun _ _ => .inl rfl
  · rw [withFrame_frame, Frame.writeLocal, Locals.read_write, if_pos rfl]
    exact hmade

/-- An effect that does not copy makes its results. -/
theorem perform_derived
    {effect : Effect}
    (hbrings : effect.Brings fun v => v.provenance = none)
    (hcopies : effect.copies = false)
    (h : perform effect m = (.ok (), n)) :
    m.frame.Derived effect.popped n.frame := by
  cases effect with
  | nothing =>
      cases h
      exact (Frame.Exchanged.refl _).derived (List.forall_mem_nil _)
  | push v =>
      rw [perform] at h
      obtain ⟨g, hpush, rfl⟩ := onFrame_eq_ok h
      exact (Frame.pushSized_exchanged hpush).derived (Value.untagged_cells hbrings)
  | discard slots =>
      rw [perform] at h
      obtain ⟨g, hpop, rfl⟩ := onFrame_eq_ok h
      exact (Frame.popMany_exchanged hpop).derived (List.forall_mem_nil _)
  | replace slots v =>
      rw [perform] at h
      obtain ⟨g, hact, rfl⟩ := onFrame_eq_ok h
      obtain ⟨_, f, hpop, hpush⟩ := exists_of_bind_eq_ok hact
      have hpushed := Frame.pushSized_exchanged hpush
      exact ((Frame.popMany_exchanged hpop).thenPop hpushed).derived
        (Value.untagged_cells hbrings)
  | increment index delta =>
      exact (increment_derived h).1
  | element =>
      rw [perform] at h
      obtain ⟨g, hact, rfl⟩ := onFrame_eq_ok h
      obtain ⟨_, first, hindex, hrest⟩ := exists_of_bind_eq_ok hact
      obtain ⟨v, second, harray, hpush⟩ := exists_of_bind_eq_ok hrest
      have hpopped :=
        (Frame.pop_exchanged hindex).2.thenPop (Frame.pop_exchanged harray).2
      refine (hpopped.thenPop (Frame.push_exchanged hpush)).derived ?_
      simp [Value.unknown]
  | arithmetic op signature =>
      rw [perform] at h
      obtain ⟨g, hact, rfl⟩ := onFrame_eq_ok h
      obtain ⟨l, hexchanged⟩ := Frame.arithmetic_exchanged hact
      exact hexchanged.derived (Value.untagged_cells rfl)
  | writeField static descriptor =>
      rw [perform] at h
      obtain ⟨g, hact, rfl⟩ := onFrame_eq_ok h
      obtain ⟨_, f, hpop, hobject⟩ := exists_of_bind_eq_ok hact
      obtain ⟨count, hcount, hpopped⟩ := Frame.popDescriptor_exchanged hpop
      rw [Effect.popped, hcount, Option.getD_some]
      cases static with
      | true =>
          cases hobject
          exact hpopped.derived (List.forall_mem_nil _)
      | false =>
          exact (hpopped.thenPop (Frame.popMany_exchanged hobject)).derived (List.forall_mem_nil _)
  | call receiver descriptor =>
      exact call_derived h
  | create type =>
      rw [perform] at h
      unfold create at h
      split at h <;> obtain ⟨g, hpush, rfl⟩ := onFrame_eq_ok h
      · refine (Frame.push_exchanged hpush).derived ?_
        simp [Value.uninitialized, Value.unknown]
      · refine (Frame.push_exchanged hpush).derived ?_
        simp [Value.uninitialized, Value.unknown]
  | refuse fault =>
      cases h
  | load | store | shuffle | readField =>
      cases hcopies

/-- An instruction that does not copy makes its results. -/
theorem execute_derived
    {r : Record}
    {op : Opcode}
    (hop : r.opcode? = some op)
    (hcopies : op ∉ copying)
    (hcontinues : op.endsFlow = false)
    (hreachable : m.frame.reachable = true)
    (h : (execute r m).1 = .ok ()) :
    m.frame.Derived r.effect.popped (execute r m).2.frame := by
  obtain ⟨n, hperform, hnext⟩ := exists_performed_of_execute hop hreachable hcontinues h
  have hbrings : r.effect.Brings fun v => v.provenance = none := by
    refine effect_brings (fun hmade => hmade.untagged) r fun name type hloads => ?_
    obtain ⟨other, hother, hopcode⟩ := hloads.copies
    rw [hop] at hopcode
    cases hopcode
    exact absurd hother hcopies
  have hderived := perform_derived hbrings (copies_effect hop hcopies) hperform
  rw [hnext]
  exact ⟨hderived.locals, hderived.stack⟩

end Machine
end SlotFlow
