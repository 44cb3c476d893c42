import SlotFlow.Proofs.Frame.Account

/-!
# Whole values on the stack

A value that takes two slots is followed by an empty slot, its second half. The stack is
paired if these two always stand together.

Main definitions:

* `Frame.Paired`: stacks on which wide values and second halves stand together;
* `wholeSlots`: the same of slots, read from the top.

Main statements:

* `Frame.paired_iff`: a stack is paired exactly if its slots are those of whole values;
* `wholeSlots_append`: whole values on top of others.
-/

namespace SlotFlow

/--
A stack on which every wide value is followed by an empty slot, and every empty slot is
preceded by a wide value. The stack is listed top first, so what follows a value on the
stack stands before it in the list.
-/
structure Frame.Paired (f : Frame) : Prop where
  wide :
    ∀ (i : Nat) (v : Value), f.stack[i]? = some v → v.isWide = true →
      ∃ j t, i = j + 1 ∧ f.stack[j]? = some t ∧ t.isTop = true
  top :
    ∀ (i : Nat) (t : Value), f.stack[i]? = some t → t.isTop = true →
      ∃ v, f.stack[i + 1]? = some v ∧ v.isWide = true

/-- Whether slots, top first, are those of whole values. -/
def wholeSlots : List Slot → Bool
  | [] => true
  | .single :: slots => wholeSlots slots
  | .empty :: .wide :: slots => wholeSlots slots
  | _ => false

theorem wholeSlots_append
    {slots : List Slot}
    (h : wholeSlots slots = true)
    (others : List Slot) :
    wholeSlots (slots ++ others) = wholeSlots others := by
  fun_induction wholeSlots slots with
  | case1 =>
      rfl
  | case2 slots ih =>
      exact ih h
  | case3 slots ih =>
      exact ih h
  | case4 =>
      cases h

namespace Value

theorem slot_eq_wide
    {v : Value} :
    v.slot = .wide ↔ v.isWide = true := by
  unfold slot isWide
  cases v.category <;> simp [Category.slot, Category.isWide]

theorem slot_eq_empty
    {v : Value} :
    v.slot = .empty ↔ v.isTop = true := by
  unfold slot isTop
  cases v.category <;> simp [Category.slot]

end Value

namespace Frame

/-- The slots of a stack whose wide values and second halves stand together. -/
structure PairedSlots (slots : List Slot) : Prop where
  wide : ∀ i, slots[i]? = some .wide → ∃ j, i = j + 1 ∧ slots[j]? = some .empty
  empty : ∀ i, slots[i]? = some .empty → slots[i + 1]? = some .wide

theorem pairedSlots_iff
    {f : Frame} :
    f.Paired ↔ PairedSlots (f.stack.map Value.slot) := by
  have hslot (i : Nat) (s : Slot) :
      (f.stack.map Value.slot)[i]? = some s ↔ ∃ v, f.stack[i]? = some v ∧ v.slot = s := by
    rw [List.getElem?_map, Option.map_eq_some_iff]
  constructor
  · intro h
    constructor
    · intro i hi
      obtain ⟨v, hv, hwide⟩ := (hslot i .wide).1 hi
      obtain ⟨j, t, hj, ht, htop⟩ := h.wide i v hv (Value.slot_eq_wide.1 hwide)
      exact ⟨j, hj, (hslot j .empty).2 ⟨t, ht, Value.slot_eq_empty.2 htop⟩⟩
    · intro i hi
      obtain ⟨t, ht, hempty⟩ := (hslot i .empty).1 hi
      obtain ⟨v, hv, hwide⟩ := h.top i t ht (Value.slot_eq_empty.1 hempty)
      exact (hslot (i + 1) .wide).2 ⟨v, hv, Value.slot_eq_wide.2 hwide⟩
  · intro h
    constructor
    · intro i v hv hwide
      obtain ⟨j, hj, hempty⟩ := h.wide i ((hslot i .wide).2 ⟨v, hv, Value.slot_eq_wide.2 hwide⟩)
      obtain ⟨t, ht, htop⟩ := (hslot j .empty).1 hempty
      exact ⟨j, t, hj, ht, Value.slot_eq_empty.1 htop⟩
    · intro i t ht htop
      have hwide := h.empty i ((hslot i .empty).2 ⟨t, ht, Value.slot_eq_empty.2 htop⟩)
      obtain ⟨v, hv, hslotv⟩ := (hslot (i + 1) .wide).1 hwide
      exact ⟨v, hv, Value.slot_eq_wide.1 hslotv⟩

namespace PairedSlots

variable {slots : List Slot}

theorem single_cons :
    PairedSlots (.single :: slots) ↔ PairedSlots slots := by
  constructor
  · intro h
    constructor
    · intro i hi
      obtain ⟨j, hj, hempty⟩ := h.wide (i + 1) hi
      cases j with
      | zero =>
          cases hempty
      | succ j =>
          exact ⟨j, Nat.succ.inj hj, hempty⟩
    · intro i hi
      exact h.empty (i + 1) hi
  · intro h
    constructor
    · intro i hi
      cases i with
      | zero =>
          cases hi
      | succ i =>
          obtain ⟨j, rfl, hempty⟩ := h.wide i hi
          exact ⟨j + 1, rfl, hempty⟩
    · intro i hi
      cases i with
      | zero =>
          cases hi
      | succ i =>
          exact h.empty i hi

theorem pair_cons :
    PairedSlots (.empty :: .wide :: slots) ↔ PairedSlots slots := by
  constructor
  · intro h
    constructor
    · intro i hi
      obtain ⟨j, hj, hempty⟩ := h.wide (i + 2) hi
      match j with
      | 0 =>
          cases hj
      | 1 =>
          cases hempty
      | j + 2 =>
          exact ⟨j, by omega, hempty⟩
    · intro i hi
      exact h.empty (i + 2) hi
  · intro h
    constructor
    · intro i hi
      match i with
      | 0 =>
          cases hi
      | 1 =>
          exact ⟨0, rfl, rfl⟩
      | i + 2 =>
          obtain ⟨j, rfl, hempty⟩ := h.wide i hi
          exact ⟨j + 2, rfl, hempty⟩
    · intro i hi
      match i with
      | 0 =>
          rfl
      | 1 =>
          cases hi
      | i + 2 =>
          exact h.empty i hi

theorem iff_whole :
    PairedSlots slots ↔ wholeSlots slots = true := by
  fun_induction wholeSlots slots with
  | case1 =>
      exact ⟨fun _ => rfl, fun _ => ⟨nofun, nofun⟩⟩
  | case2 slots ih =>
      exact single_cons.trans ih
  | case3 slots ih =>
      exact pair_cons.trans ih
  | case4 slots hnil hsingle hpair =>
      -- A wide value on top, or an empty slot without one below it.
      refine ⟨fun h => ?_, nofun⟩
      match slots with
      | [] =>
          exact (hnil rfl).elim
      | .single :: rest =>
          exact (hsingle rest rfl).elim
      | .wide :: rest =>
          obtain ⟨j, hj, _⟩ := h.wide 0 rfl
          cases hj
      | .empty :: rest =>
          have hnext := h.empty 0 rfl
          match rest with
          | .wide :: rest =>
              exact (hpair rest rfl).elim
          | [] | .single :: _ | .empty :: _ =>
              cases hnext

end PairedSlots

/-- A stack is paired exactly if its slots are those of whole values. -/
theorem paired_iff
    {f : Frame} :
    f.Paired ↔ wholeSlots (f.stack.map Value.slot) = true :=
  pairedSlots_iff.trans PairedSlots.iff_whole

end Frame
end SlotFlow
