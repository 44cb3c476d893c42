import Mathlib.Algebra.Ring.Nat
import SlotFlow.Proofs.Fold.Kinds
import SlotFlow.Proofs.Frame.Operations
import SlotFlow.Proofs.Machine.Operands

/-!
# Literals of operands on a stack

The specification, the table of signatures and the reports of folding speak of the same
operands: what is folded are the literals in the slots of values of the named kinds, and a
stack with the operands that the specification demands has literals of these kinds there.

Main definitions:

* `literalsOn`: what is known of the operands on a stack;
* `Operand.ofKind`: the operand that holds a number of a kind.

Main statements:

* `folded_literalsOn`: what is folded are the operands on the stack;
* `forms_of_signature`: the specification demands operands of the named kinds;
* `hasKind_literalsOn`: operands that a stack holds have the kinds that are demanded;
* `fold_of_typed`: operands of the right types can be folded.
-/

namespace SlotFlow

open Fold (Folded HasKind)

variable {op : Opcode} {s : Signature} {stack : List Value}

/--
What is known of operands on a stack that take some numbers of slots, deepest first. A value is
in the deepest of its slots.
-/
def literalsOn
    (stack : List Value) :
    List Nat → List Literal
  | [] => []
  | count :: counts =>
      (Locals.read stack ((count :: counts).sum - 1)).literal :: literalsOn stack counts

theorem length_literalsOn
    (stack : List Value)
    (counts : List Nat) :
    (literalsOn stack counts).length = counts.length := by
  induction counts with
  | nil =>
      rfl
  | cons count counts ih =>
      rw [literalsOn, List.length_cons, ih, List.length_cons]

/-- What is folded are the operands on the stack. -/
theorem folded_literalsOn
    (h : op.signature? = some s)
    (stack : List Value) :
    Folded op s (literalsOn stack (s.widths.map Width.slots)) (s.fold op stack) := by
  cases s with
  | unary operand result =>
      exact .unary h _
  | binary left right result =>
      have hfolded := Folded.binary h
        (Locals.read stack (right.slots + left.slots - 1)).literal
        (Locals.read stack (right.slots - 1)).literal
      simpa [literalsOn, Signature.widths, Signature.fold, Nat.add_comm] using hfolded

/-- An operand that only values of a kind are accepted for. -/
structure Operand.HoldsKind
    (o : Operand)
    (k : Kind) : Prop where
  width : o.slots.length = k.width
  category : ∀ c, o.accepts c = true → c = .ofKind k

/-- Kinds of numbers, which arithmetic has operands of. -/
def Kind.isNumber : Kind → Bool
  | int | long | float | double => true
  | _ => false

/-- The operand that holds a number of a kind. -/
def Operand.ofKind : Kind → Operand
  | .int => int
  | .long => long
  | .float => float
  | .double => double
  | _ => reference

theorem Operand.holdsKind_ofKind
    {k : Kind}
    (h : k.isNumber = true) :
    (ofKind k).HoldsKind k := by
  cases k <;> first | exact ⟨rfl, fun _ => of_decide_eq_true⟩ | cases h

/-- The specification demands operands of the named kinds, the last one on top. -/
theorem forms_of_signature
    (h : op.signature? = some s) :
    op.forms = [(op.namedKinds s.widths.length).reverse.map Operand.ofKind] := by
  cases op <;> cases h <;> rfl

theorem isNumber_of_signature
    (h : op.signature? = some s) :
    ∀ k ∈ op.namedKinds s.widths.length, k.isNumber = true := by
  have hrows : ∀ row ∈ Signature.operandRows, ∀ k ∈ row, k.isNumber = true := by
    decide
  exact hrows _ (Signature.namedKinds_mem h)

theorem Category.ofKind_injective
    {k l : Kind}
    (h : ofKind k = ofKind l) :
    k = l := by
  cases k <;> cases l <;> first | rfl | cases h

/-- What is known of a value in an operand of a kind is of that kind. -/
theorem Operand.HoldsKind.literal
    {o : Operand}
    {k : Kind}
    {v : Value}
    (h : o.HoldsKind k)
    (haccepts : o.accepts v.category = true)
    (hv : v.Built) :
    HasKind v.literal k := by
  rcases hv.kind with hunknown | hkind
  · exact Or.inl hunknown
  · right
    rw [h.category _ haccepts] at hkind
    exact Category.ofKind_injective hkind

theorem read_built
    {cells : List Value}
    (h : ∀ v ∈ cells, v.Built)
    (index : Nat) :
    (Locals.read cells index).Built := by
  unfold Locals.read
  cases hcell : cells[index]? with
  | none =>
      exact .top
  | some v =>
      exact h v (List.mem_of_getElem? hcell)

/-- Of two rows of operands one after the other, the second is below the slots of the first. -/
theorem Holds.of_append
    {os ps : List Operand}
    (h : Holds (os ++ ps) stack) :
    Holds os stack ∧ Holds ps (stack.drop (os.flatMap Operand.slots).length) := by
  induction os generalizing stack with
  | nil =>
      exact ⟨.nil stack, h⟩
  | cons o os ih =>
      rw [List.flatMap_cons, List.length_append, ← List.drop_drop]
      obtain ⟨hos, hps⟩ := ih h.tail
      refine ⟨?_, hps⟩
      cases h with
      | one hwide hv _ =>
          rw [Operand.slots_of_narrow hwide] at hos
          exact .one hwide hv hos
      | two hwide ht hv _ =>
          rw [Operand.slots_of_wide hwide] at hos
          exact .two hwide ht hv hos

/-- Operands of kinds take the slots that values of the kinds do. -/
theorem length_slots_ofKind
    {kinds : List Kind}
    (h : ∀ k ∈ kinds, k.isNumber = true) :
    ((kinds.reverse.map Operand.ofKind).flatMap Operand.slots).length =
      (kinds.map Kind.width).sum := by
  induction kinds with
  | nil =>
      rfl
  | cons k kinds ih =>
      obtain ⟨hk, hkinds⟩ := List.forall_mem_cons.1 h
      have hwidth := (Operand.holdsKind_ofKind hk).width
      rw [List.reverse_cons, List.map_append, List.flatMap_append, List.length_append, ih hkinds,
        List.map_singleton, List.flatMap_singleton, hwidth, List.map_cons, List.sum_cons,
        Nat.add_comm]

/-- What is known of the operands that a stack holds is of the kinds that are demanded. -/
theorem hasKind_literalsOn
    {kinds : List Kind}
    (hnumbers : ∀ k ∈ kinds, k.isNumber = true)
    (h : Holds (kinds.reverse.map Operand.ofKind) stack)
    (hbuilt : ∀ v ∈ stack, v.Built) :
    List.Forall₂ HasKind (literalsOn stack (kinds.map Kind.width)) kinds := by
  induction kinds with
  | nil =>
      exact .nil
  | cons k kinds ih =>
      obtain ⟨hk, hkinds⟩ := List.forall_mem_cons.1 hnumbers
      have ho := Operand.holdsKind_ofKind hk
      rw [List.reverse_cons, List.map_append] at h
      obtain ⟨habove, hbelow⟩ := h.of_append
      refine .cons ?_ (ih hkinds habove)
      -- the operand is below the slots of the ones that were pushed after it
      have haccepts := hbelow.head
      have hpos : 0 < k.width := by
        cases k <;> decide
      have hindex : (kinds.map Kind.width).sum + (k.width - 1) =
          ((k :: kinds).map Kind.width).sum - 1 := by
        rw [List.map_cons, List.sum_cons]
        omega
      rw [ho.width, length_slots_ofKind hkinds, Frame.read_drop, hindex] at haccepts
      exact ho.literal haccepts (read_built hbuilt _)

/-- Operands of the right types can be folded. -/
theorem fold_of_typed
    {form : List Operand}
    (hs : op.signature? = some s)
    (hform : form ∈ op.forms)
    (h : Holds form stack)
    (hbuilt : ∀ v ∈ stack, v.Built) :
    ∃ l, s.fold op stack = .ok l := by
  rw [forms_of_signature hs, List.mem_singleton] at hform
  subst hform
  have hkinds := hasKind_literalsOn (isNumber_of_signature hs) h hbuilt
  rw [← Signature.widths_eq hs] at hkinds
  apply (folded_literalsOn hs stack).exists_ok_of_hasKind
  rwa [length_literalsOn, List.length_map]

end SlotFlow
