import SlotFlow.Fold
import SlotFlow.Proofs.Value.Built

/-!
# Folding known and unknown operands

Main statements:

* `fold1_error`, `fold2_error`: folding only fails with a mismatch;
* `fold1_of_unknown`, `fold2_of_unknown`: knowing less of the operands gives the same
  result or an unknown one.
-/

namespace SlotFlow

/-- Whether a fault reports that known operands had the wrong types. -/
def Fault.IsMismatch
    (e : Fault) :
    Prop :=
  ∃ op expected found, e = .literalMismatch op expected found

namespace Fold

variable {op : Opcode} {e : Fault}

theorem orMismatch_error
    {found : List Kind}
    {result : Option Literal}
    (h : orMismatch op found result = .error e) :
    e = .literalMismatch op op.expectedKinds found := by
  cases result <;> cases h
  rfl

theorem fold1_error
    {operand : Literal}
    (h : fold1 op operand = .error e) :
    ∃ found, e = .literalMismatch op op.expectedKinds found := by
  unfold fold1 at h
  split at h
  · exact ⟨_, orMismatch_error h⟩
  · cases h

theorem fold2_error
    {left right : Literal}
    (h : fold2 op left right = .error e) :
    ∃ found, e = .literalMismatch op op.expectedKinds found := by
  unfold fold2 at h
  split at h
  · exact ⟨_, orMismatch_error h⟩
  · cases h

/-- Of an operand that is not known the result is not known. -/
theorem fold1_of_unknown
    {l k : Literal}
    (op : Opcode)
    (h : l = .unknown ∨ l = k) :
    fold1 op l = .ok .unknown ∨ fold1 op l = fold1 op k := by
  rcases h with rfl | rfl
  · exact Or.inl (fold1_unknown op)
  · exact Or.inr rfl

/-- Of operands that are not both known the result is not known. -/
theorem fold2_of_unknown
    {l k l' k' : Literal}
    (op : Opcode)
    (h : l = .unknown ∨ l = k)
    (h' : l' = .unknown ∨ l' = k') :
    fold2 op l l' = .ok .unknown ∨ fold2 op l l' = fold2 op k k' := by
  rcases h with rfl | rfl
  · exact Or.inl (fold2_unknown_left op l')
  · rcases h' with rfl | rfl
    · exact Or.inl (fold2_unknown_right op l)
    · exact Or.inr rfl

end Fold
end SlotFlow
