import SlotFlow.Frame

/-!
# Locals after a write

A wide value and the empty slot after it stand together among the locals. A write takes
care of the neighbours of the slot it changes.

Main definitions:

* `Locals.Paired`: every wide local is followed by an empty slot;
* `Locals.InBounds`: the slots that a write touches are there.

Main statements:

* `read_write`: every slot after a write;
* `Paired.write`: a write keeps locals paired, whatever is written;
* `Paired.inBounds`: a write on paired locals stays within them.
-/

namespace SlotFlow
namespace Locals

variable {cells : List Value} {index : Nat}

/-- Every wide local is followed by an empty slot. -/
def Paired
    (cells : List Value) :
    Prop :=
  ∀ (i : Nat) (v : Value), cells[i]? = some v → v.isWide = true →
    ∃ t, cells[i + 1]? = some t ∧ t.isTop = true

/--
Once room was made for the value, the slot that is written is there, and so is the next
one where a wide value is written or overwritten.
-/
def InBounds
    (cells : List Value)
    (index : Nat)
    (v : Value) :
    Prop :=
  let padded := pad (index + if v.isWide then 2 else 1) cells
  index < padded.length ∧
    ((v.isWide || isWideAt padded index) = true → index + 1 < padded.length)

theorem isWideAt_eq
    (cells : List Value)
    (index : Nat) :
    isWideAt cells index = (read cells index).isWide := by
  rw [isWideAt, read]
  cases cells[index]? <;> rfl

/-- What is wide stands before the end. -/
theorem lt_length_of_isWide
    (h : (read cells index).isWide = true) :
    index < cells.length := by
  rcases Nat.lt_or_ge index cells.length with hlt | hge
  · exact hlt
  · rw [read, List.getElem?_eq_none hge] at h
    cases h

theorem paired_iff :
    Paired cells ↔
      ∀ i, (read cells i).isWide = true →
        i + 1 < cells.length ∧ (read cells (i + 1)).isTop = true := by
  constructor
  · intro h i hwide
    have hi := lt_length_of_isWide hwide
    have hcell : cells[i]? = some (read cells i) := by
      rw [read, List.getElem?_eq_getElem hi]
      rfl
    obtain ⟨t, ht, htop⟩ := h i _ hcell hwide
    have hread : read cells (i + 1) = t := by
      rw [read, ht]
      rfl
    rw [hread]
    exact ⟨(List.getElem?_eq_some_iff.1 ht).1, htop⟩
  · intro h i v hv hwide
    have hread : read cells i = v := by
      rw [read, hv]
      rfl
    obtain ⟨hlt, htop⟩ := h i (by rw [hread]; exact hwide)
    refine ⟨read cells (i + 1), ?_, htop⟩
    rw [read, List.getElem?_eq_getElem hlt]
    rfl

theorem length_pad
    (length : Nat)
    (cells : List Value) :
    (pad length cells).length = max cells.length length := by
  rw [pad, List.length_append, List.length_replicate]
  omega

/-- Empty slots past the end are read there anyway. -/
theorem read_pad
    (length : Nat)
    (cells : List Value)
    (j : Nat) :
    read (pad length cells) j = read cells j := by
  rw [read, read, pad, List.getElem?_append]
  split
  · rfl
  · rename_i hlt
    rw [List.getElem?_eq_none (Nat.le_of_not_lt hlt), List.getElem?_replicate]
    split <;> rfl

theorem read_append
    (cells others : List Value)
    (j : Nat) :
    read (cells ++ others) j =
      if j < cells.length then read cells j else read others (j - cells.length) := by
  rw [read, List.getElem?_append]
  split <;> rfl

theorem read_set
    (h : index < cells.length)
    (v : Value)
    (j : Nat) :
    read (cells.set index v) j = if j = index then v else read cells j := by
  rw [read, List.getElem?_set]
  by_cases hj : index = j
  · subst hj
    simp [h]
  · rw [if_neg hj, if_neg (Ne.symm hj), read]

/-- Emptying a slot past the end changes nothing, as it is read as empty. -/
theorem read_set_top
    (cells : List Value)
    (index j : Nat) :
    read (cells.set index .top) j = if j = index then .top else read cells j := by
  by_cases h : index < cells.length
  · exact read_set h .top j
  · have hset : cells.set index .top = cells := List.set_eq_of_length_le (Nat.le_of_not_lt h)
    rw [hset]
    split
    · rename_i hj
      rw [hj, read, List.getElem?_eq_none (Nat.le_of_not_lt h)]
      rfl
    · rfl

theorem read_emptyNext
    (cells : List Value)
    (index : Nat)
    (needed : Bool)
    (j : Nat) :
    read (emptyNext cells index needed) j =
      if needed = true ∧ j = index + 1 then .top else read cells j := by
  cases needed with
  | false =>
      simp [emptyNext]
  | true =>
      simpa [emptyNext] using read_set_top cells (index + 1) j

theorem read_emptyPrevious
    (cells : List Value)
    (index j : Nat) :
    read (emptyPrevious cells index) j =
      if j + 1 = index ∧ (read cells j).isWide = true then .top else read cells j := by
  cases index with
  | zero =>
      simp [emptyPrevious]
  | succ index =>
      rw [emptyPrevious, isWideAt_eq]
      by_cases hwide : (read cells index).isWide = true
      · rw [if_pos hwide, read_set_top]
        by_cases hj : j = index
        · simp [hj, hwide]
        · simp [hj]
      · rw [if_neg hwide, if_neg]
        rintro ⟨hj, hj'⟩
        obtain rfl : j = index := by omega
        exact hwide hj'

/--
Every slot after a write: the value, the emptied second half after it, the slot before
it if that has lost its second half, and all else as it was.
-/
theorem read_write
    (cells : List Value)
    (index : Nat)
    (v : Value)
    (j : Nat) :
    read (write cells index v) j =
      if j = index then v
      else if j = index + 1 ∧ (v.isWide = true ∨ (read cells index).isWide = true) then .top
      else if j + 1 = index ∧ (read cells j).isWide = true then .top
      else read cells j := by
  have hindex : index < (pad (index + if v.isWide then 2 else 1) cells).length := by
    rw [length_pad]
    split <;> omega
  rw [write, read_emptyPrevious, read_emptyNext, isWideAt_eq, read_set hindex, read_pad, read_pad]
  simp only [Bool.or_eq_true]
  by_cases hj : j = index
  · simp [hj]
  · by_cases hnext : j = index + 1
    · have hpast : index + 1 + 1 ≠ index := by omega
      simp [hnext, hpast]
    · simp [hj, hnext]

namespace Paired

/-- A write keeps locals paired, whatever is written. -/
theorem write
    (h : Paired cells)
    (index : Nat)
    (v : Value) :
    Paired (Locals.write cells index v) := by
  rw [paired_iff] at h ⊢
  intro i hwide
  rw [length_write]
  rw [read_write] at hwide ⊢
  by_cases hi : i = index
  · subst hi
    rw [if_pos rfl] at hwide
    refine ⟨?_, ?_⟩
    · rw [if_pos hwide]
      omega
    · simp [hwide, Value.isTop, Value.top, Value.unknown]
  · rw [if_neg hi] at hwide
    split at hwide
    · cases hwide
    split at hwide
    · cases hwide
    · -- The slot was wide before and kept its second half.
      rename_i hnotNext hnotPrevious
      obtain ⟨hlength, htop⟩ := h i hwide
      have hbefore : i + 1 ≠ index := fun heq => hnotPrevious ⟨heq, hwide⟩
      refine ⟨by omega, ?_⟩
      rw [if_neg hbefore]
      split
      · rfl
      split
      · rfl
      · exact htop

/-- A write on paired locals stays within them. -/
theorem inBounds
    (h : Paired cells)
    (index : Nat)
    (v : Value) :
    InBounds cells index v := by
  rw [paired_iff] at h
  unfold InBounds
  simp only [length_pad, isWideAt_eq, read_pad, Bool.or_eq_true]
  constructor
  · split <;> omega
  · rintro (hwide | hwide)
    · rw [if_pos hwide]
      omega
    · have hlength := (h index hwide).1
      omega

theorem cons_narrow
    {v : Value}
    (h : Paired cells)
    (hnarrow : v.isWide = false) :
    Paired (v :: cells) := by
  intro i w hw hwide
  cases i with
  | zero =>
      cases hw
      rw [hnarrow] at hwide
      cases hwide
  | succ i =>
      exact h i w hw hwide

theorem cons_wide
    (h : Paired cells)
    (v : Value) :
    Paired (v :: .top :: cells) := by
  intro i w hw hwide
  match i with
  | 0 =>
      exact ⟨.top, rfl, rfl⟩
  | 1 =>
      cases hw
      cases hwide
  | i + 2 =>
      exact h i w hw hwide

/-- A replacement that makes nothing narrow wide and fills no empty slot keeps locals paired. -/
theorem replaced
    (h : Paired cells)
    {old new : Value}
    (hwide : new.isWide = true → old.isWide = true)
    (htop : old.isTop = true → new.isTop = true) :
    Paired (cells.map fun v => if v = old then new else v) := by
  intro i w hw hw'
  obtain ⟨v, hv, rfl⟩ := Option.map_eq_some_iff.1 ((List.getElem?_map ..).symm.trans hw)
  have hv' : v.isWide = true := by
    split at hw'
    · rename_i heq
      rw [heq]
      exact hwide hw'
    · exact hw'
  obtain ⟨t, ht, ht'⟩ := h i v hv hv'
  refine ⟨if t = old then new else t, ?_, ?_⟩
  · rw [List.getElem?_map, ht, Option.map_some]
  · split
    · rename_i heq
      rw [heq] at ht'
      exact htop ht'
    · exact ht'

/-- The types of a frame record are laid out with their second halves. -/
theorem expand
    (types : List VerificationType) :
    Paired (Frame.expand types) := by
  induction types with
  | nil =>
      intro i v hv
      cases hv
  | cons type types ih =>
      rw [Frame.expand, List.flatMap_cons]
      by_cases hwide : type.isWide = true
      · simp only [hwide, if_true]
        exact ih.cons_wide _
      · simp only [hwide]
        apply ih.cons_narrow
        cases type <;> first | rfl | exact absurd rfl hwide

end Paired
end Locals
end SlotFlow
