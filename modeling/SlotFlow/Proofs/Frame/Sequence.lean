import SlotFlow.Proofs.Machine.Consistent

/-!
# Frame operations in a row

Whoever holds a frame may carry out its operations in any order. They keep each wide
local and the empty slot after it together, and then no write leaves the locals, as long
as replacements respect slots: a replacement that turns a narrow value into a wide one
gives it no second half, and one that fills empty slots takes second halves away.

Main definitions:

* `Operation`, `applyAll`: operations on a frame, and any number of them in a row;
* `Started`: the frames that there are before any operation;
* `Operation.RespectsSlots`: replacements that keep slots what they are.

Main statements:

* `apply_coherent`: one operation;
* `exists_unpaired`: no weaker condition on replacements would do;
* `applyAll_paired`: operations in a row;
* `applyAll_unpaired`: a replacement after which the next write leaves the locals.
-/

namespace SlotFlow
namespace Frame

/-- An operation on a frame that is open to everyone. -/
inductive Operation where
  | getLocal (index : Nat)
  | setLocal (index : Nat) (v : Value)
  | push (v : Value)
  | pushSized (v : Value)
  | pop
  | popWide (count : Nat)
  | popMany (count : Nat)
  | popDescriptor (descriptor : String)
  | pushDescriptor (descriptor : String) (field : Option String)
  | resetTo (locals stack : List VerificationType)
  | leave
  | replaceAll (old new : Value)

/-- The frame after an operation, whether or not that has failed. -/
def apply
    (f : Frame) :
    Operation → Frame
  | .getLocal index => (getLocal index f).2
  | .setLocal index v => (setLocal index v f).2
  | .push v => (push v f).2
  | .pushSized v => (pushSized v f).2
  | .pop => (pop f).2
  | .popWide count => (popWide count f).2
  | .popMany count => (popMany count f).2
  | .popDescriptor descriptor => (popDescriptor descriptor f).2
  | .pushDescriptor descriptor field => (pushDescriptor descriptor field f).2
  | .resetTo locals stack => (resetTo locals stack f).2
  | .leave => f.leave
  | .replaceAll old new => f.replaceAll old new

/-- The frame after operations in a row. -/
def applyAll
    (f : Frame)
    (ops : List Operation) :
    Frame :=
  ops.foldl apply f

/-- A frame before any operation: an empty one, or the one at the start of a method. -/
inductive Started : Frame → Prop
  | empty (limit : Option Nat) : Started (empty limit)
  | entry
      {method : Method}
      {limit : Option Nat}
      {f : Frame}
      (h : entry method limit = .ok f) :
      Started f

/-- A replacement turns no narrow value into a wide one and fills no empty slot. -/
def Operation.RespectsSlots : Operation → Prop
  | replaceAll old new =>
      (new.isWide = true → old.isWide = true) ∧ (old.isTop = true → new.isTop = true)
  | _ => True

variable {f : Frame}

theorem apply_coherent
    (hf : f.Coherent)
    {op : Operation}
    (hop : op.RespectsSlots) :
    (f.apply op).Coherent := by
  have hJ := evolves_judgement
  cases op with
  | getLocal index =>
      exact (hJ.getLocal index).coherent f hf
  | setLocal index v =>
      exact (hJ.setLocal index v).coherent f hf
  | push v =>
      exact (hJ.push v).coherent f hf
  | pushSized v =>
      exact (hJ.pushSized v).coherent f hf
  | pop =>
      exact hJ.pop.coherent f hf
  | popWide count =>
      exact (hJ.popWide count).coherent f hf
  | popMany count =>
      exact (hJ.popMany count).coherent f hf
  | popDescriptor descriptor =>
      exact (hJ.popDescriptor descriptor).coherent f hf
  | pushDescriptor descriptor field =>
      exact (hJ.pushDescriptor descriptor field).coherent f hf
  | resetTo locals stack =>
      exact (hJ.resetTo locals stack).coherent f hf
  | leave =>
      exact hf.leave
  | replaceAll old new =>
      exact hf.replaced hop.1 hop.2

theorem applyAll_coherent
    (hf : f.Coherent)
    {ops : List Operation}
    (hops : ∀ op ∈ ops, op.RespectsSlots) :
    (f.applyAll ops).Coherent := by
  induction ops generalizing f with
  | nil =>
      exact hf
  | cons op ops ih =>
      apply ih (apply_coherent hf (hops op List.mem_cons_self))
      intro later hlater
      exact hops later (List.mem_cons_of_mem op hlater)

theorem Started.coherent
    (h : Started f) :
    f.Coherent := by
  cases h with
  | empty limit =>
      exact empty_coherent limit
  | entry h =>
      exact (entry_coherent h).1

/-- A narrow local that turns wide has no second half. -/
theorem unpaired_of_widened
    {old new : Value}
    (hnew : new.isWide = true)
    (hold : old.isWide = false) :
    ¬Locals.Paired ((empty none).applyAll [.setLocal 0 old, .replaceAll old new]).locals := by
  have hlocals :
      ((empty none).applyAll [.setLocal 0 old, .replaceAll old new]).locals = [new] := by
    have hwritten : Locals.write [] 0 old = [old] := by
      rw [Locals.write, hold]
      rfl
    change (Locals.write [] 0 old).map _ = _
    rw [hwritten]
    simp
  rw [hlocals]
  intro h
  obtain ⟨t, ht, _⟩ := h 0 new rfl hnew
  cases ht

/-- A wide local loses its second half to what fills it. -/
theorem unpaired_of_filled
    {old new : Value}
    (hold : old.isTop = true)
    (hnew : new.isTop = false) :
    ¬Locals.Paired
      ((empty none).applyAll
        [.setLocal 0 (.long 0), .replaceAll .top old, .replaceAll old new]).locals := by
  have hother : Value.long 0 ≠ old := by
    rintro rfl
    cases hold
  have hlocals :
      ((empty none).applyAll
        [.setLocal 0 (.long 0), .replaceAll .top old, .replaceAll old new]).locals =
      [.long 0, new] := by
    have hwritten : Locals.write [] 0 (.long 0) = [.long 0, .top] := rfl
    have hwide : Value.long 0 ≠ .top := nofun
    simp [applyAll, apply, setLocal, whenReachable, empty, writeLocal, replaceAll, hwritten, hwide,
      hother]
  rw [hlocals]
  intro h
  obtain ⟨t, ht, htop⟩ := h 0 (.long 0) rfl rfl
  cases ht
  rw [hnew] at htop
  cases htop

/--
A replacement that does not respect slots parts a wide local from its second half, after
operations that do: no weaker condition on replacements would do.
-/
theorem exists_unpaired
    {old new : Value}
    (h : ¬(Operation.replaceAll old new).RespectsSlots) :
    ∃ ops : List Operation, (∀ op ∈ ops, op.RespectsSlots) ∧
      ¬Locals.Paired ((empty none).applyAll (ops ++ [.replaceAll old new])).locals := by
  rw [Operation.RespectsSlots, Classical.not_and_iff_not_or_not] at h
  rcases h with hwidened | hfilled
  · rw [Classical.not_imp, Bool.not_eq_true] at hwidened
    refine ⟨[.setLocal 0 old], ?_, unpaired_of_widened hwidened.1 hwidened.2⟩
    intro op hop
    cases List.mem_singleton.1 hop
    trivial
  · rw [Classical.not_imp, Bool.not_eq_true] at hfilled
    refine ⟨[.setLocal 0 (.long 0), .replaceAll .top old], ?_,
      unpaired_of_filled hfilled.1 hfilled.2⟩
    have hnarrow : old.isWide = true → Value.top.isWide = true := by
      intro hwide
      rw [← Value.slot_eq_wide, Value.slot_eq_empty.2 hfilled.1] at hwide
      cases hwide
    intro op hop
    rcases List.mem_cons.1 hop with rfl | hop
    · trivial
    · cases List.mem_singleton.1 hop
      exact ⟨hnarrow, fun _ => hfilled.1⟩

/--
After any operations on a frame from its start on, replacements that respect slots among
them, each wide local is followed by an empty slot, and no write leaves the locals.
-/
theorem applyAll_paired
    {ops : List Operation}
    (hstart : Started f)
    (hops : ∀ op ∈ ops, op.RespectsSlots) :
    Locals.Paired (f.applyAll ops).locals ∧
      ∀ index v, Locals.InBounds (f.applyAll ops).locals index v := by
  have hpaired := (applyAll_coherent hstart.coherent hops).paired
  exact ⟨hpaired, hpaired.inBounds⟩

/-- A long is written over the second half of another, and copies of it are replaced. -/
theorem applyAll_paired_overlapping :
    let ops : List Operation :=
      [.setLocal 0 (.long 1), .setLocal 1 (.long 7), .replaceAll (.long 7) (.int 3),
        .setLocal 2 .null]
    ((empty (some 4)).applyAll ops).locals = [.top, .int 3, .null] ∧
      Locals.Paired ((empty (some 4)).applyAll ops).locals := by
  intro ops
  have hops : ∀ op ∈ ops, op.RespectsSlots := by
    intro op hop
    simp only [ops, List.mem_cons, List.not_mem_nil, or_false] at hop
    rcases hop with rfl | rfl | rfl | rfl
    · trivial
    · trivial
    · exact ⟨nofun, nofun⟩
    · trivial
  exact ⟨rfl, (applyAll_paired (.empty (some 4)) hops).1⟩

/-- An int that is replaced by a long gets no second half, and the next write runs past the end. -/
theorem applyAll_unpaired :
    let f := (empty none).applyAll [.setLocal 0 (.int 1), .replaceAll (.int 1) (.long 1)]
    f.locals = [.long 1] ∧ ¬Locals.Paired f.locals ∧ ¬Locals.InBounds f.locals 0 (.int 2) := by
  refine ⟨rfl, unpaired_of_widened rfl rfl, ?_⟩
  intro h
  exact absurd (h.2 rfl) (by decide)

end Frame
end SlotFlow
