import Mathlib.Data.List.Forall2
import SlotFlow.Proofs.Fold
import SlotFlow.Signature

/-!
# Kinds of operands and results

Three tables speak of the operands of arithmetic, each written for itself: the signatures say
how many slots are popped and which category the result has, folding has results for known
literals of some kinds, and reports of a mismatch name kinds. They agree.

Main definitions:

* `Opcode.namedKinds`: the kinds that a report names, one for each operand;
* `DividesByZero`: operands of which an operation has no result;
* `Folded`: what an opcode of arithmetic makes of literals;
* `Covers`: a table that has results for the opcodes over some kinds, and for no others.

Main statements:

* `Signature.widths_eq`: the slots that are popped are those of values of the named kinds;
* `known1_covers`, `known2_covers`: the tables of results cover the kinds of their literals;
* `Folded.unknown`, `Folded.mismatch_iff`, `Folded.exists_ok`: unknown operands, operands of
  the wrong kinds, operands of the right ones;
* `Folded.exists_ok_of_hasKind`: operands that are unknown or of the right kinds;
* `Folded.kept`: the value of a result keeps its literal.
-/

namespace SlotFlow

/-- Slots that a value of a kind takes. -/
def Kind.width
    (k : Kind) :
    Nat :=
  if (Category.ofKind k).isWide then 2 else 1

/--
The kinds that a mismatch report names for a number of operands. A kind that is named alone
is meant for each of them.
-/
def Opcode.namedKinds
    (op : Opcode)
    (count : Nat) :
    List Kind :=
  match op.expectedKinds with
  | [kind] => List.replicate count kind
  | kinds => kinds

namespace Signature

variable {op : Opcode} {s : Signature}

/-- The slots that are popped for the operands are those of values of the named kinds. -/
theorem widths_eq
    (h : op.signature? = some s) :
    s.widths.map Width.slots = (op.namedKinds s.widths.length).map Kind.width := by
  cases op <;> cases h <;> rfl

/-- The rows of kinds that arithmetic has operands of. -/
def operandRows : List (List Kind) :=
  [[.int], [.long], [.float], [.double], [.int, .int], [.long, .long], [.long, .int],
    [.float, .float], [.double, .double]]

theorem namedKinds_mem
    (h : op.signature? = some s) :
    op.namedKinds s.widths.length ∈ operandRows := by
  cases op <;> cases h <;> decide

theorem result_ne_top
    (h : op.signature? = some s) :
    s.result ≠ .top := by
  cases op <;> cases h <;> decide

end Signature

namespace Fold

variable {op : Opcode} {s : Signature} {literals : List Literal}
  {outcome : Except Fault Literal}

/-- The operands of a division or remainder of integers of which the divisor is zero. -/
def DividesByZero
    (op : Opcode)
    (literals : List Literal) :
    Prop :=
  (op = .idiv ∨ op = .irem) ∧ literals.getLast? = some (.int 0) ∨
    (op = .ldiv ∨ op = .lrem) ∧ literals.getLast? = some (.long 0)

/-- What an opcode of arithmetic makes of its operands, deepest first. -/
inductive Folded (op : Opcode) : Signature → List Literal → Except Fault Literal → Prop
  | unary
      {operand : Width}
      {result : Category}
      (signature : op.signature? = some (.unary operand result))
      (l : Literal) :
      Folded op (.unary operand result) [l] (fold1 op l)
  | binary
      {left right : Width}
      {result : Category}
      (signature : op.signature? = some (.binary left right result))
      (l r : Literal) :
      Folded op (.binary left right result) [l, r] (fold2 op l r)

/--
A table has results of literals for exactly the opcodes whose reports name their kinds. A
result is of the kind for the category of the signature, or none is known of a division by
zero.
-/
structure Covers
    (table : Opcode → Option Literal)
    (literals : List Literal) : Prop where
  result :
    ∀ op s, op.signature? = some s →
      op.namedKinds s.widths.length = literals.map Literal.kind →
        ∃ l, table op = some l ∧
          (DividesByZero op literals ∧ l = .unknown ∨
            ¬ DividesByZero op literals ∧ .ofKind l.kind = s.result)
  none :
    ∀ op s, op.signature? = some s →
      op.namedKinds s.widths.length ≠ literals.map Literal.kind → table op = none

section Tables

/-- Where no integers are divided, a result that is found is known. -/
theorem known_of_no_division
    {table : Opcode → Option Literal}
    {l : Literal}
    (hl : table op = some l)
    (hop : op ∉ [.idiv, .irem, .ldiv, .lrem])
    (hresult : .ofKind l.kind = s.result) :
    ∃ l, table op = some l ∧
      (DividesByZero op literals ∧ l = .unknown ∨
        ¬ DividesByZero op literals ∧ .ofKind l.kind = s.result) := by
  simp only [List.mem_cons, List.not_mem_nil, or_false, not_or] at hop
  exact ⟨l, hl, .inr ⟨by simp [DividesByZero, hop], hresult⟩⟩

theorem onInt_covers
    (v : Int32) :
    Covers (onInt? v) [.int v] where
  result op s hs hkinds := by
    cases op <;> cases hs <;> cases hkinds <;> exact known_of_no_division rfl (by decide) rfl
  none op s hs hkinds := by
    cases op <;> cases hs <;> first | rfl | exact absurd rfl hkinds

theorem onLong_covers
    (v : Int64) :
    Covers (onLong? v) [.long v] where
  result op s hs hkinds := by
    cases op <;> cases hs <;> cases hkinds <;> exact known_of_no_division rfl (by decide) rfl
  none op s hs hkinds := by
    cases op <;> cases hs <;> first | rfl | exact absurd rfl hkinds

theorem onFloat_covers
    (v : Float32) :
    Covers (onFloat? v) [.float v] where
  result op s hs hkinds := by
    cases op <;> cases hs <;> cases hkinds <;> exact known_of_no_division rfl (by decide) rfl
  none op s hs hkinds := by
    cases op <;> cases hs <;> first | rfl | exact absurd rfl hkinds

theorem onDouble_covers
    (v : Float) :
    Covers (onDouble? v) [.double v] where
  result op s hs hkinds := by
    cases op <;> cases hs <;> cases hkinds <;> exact known_of_no_division rfl (by decide) rfl
  none op s hs hkinds := by
    cases op <;> cases hs <;> first | rfl | exact absurd rfl hkinds

/-- The result of a division is known unless the divisor is zero. -/
theorem quotient_kind
    {literals : List Literal}
    {zero : Prop}
    [Decidable zero]
    {l : Literal}
    (h : DividesByZero op literals ↔ zero) :
    DividesByZero op literals ∧ (if zero then .unknown else l) = .unknown ∨
      ¬ DividesByZero op literals ∧
        Category.ofKind (if zero then .unknown else l).kind = .ofKind l.kind := by
  by_cases hzero : zero
  · exact .inl ⟨h.2 hzero, if_pos hzero⟩
  · exact .inr ⟨fun hdivides => hzero (h.1 hdivides), by rw [if_neg hzero]⟩

theorem onInts_covers
    (a b : Int32) :
    Covers (onInts? a b) [.int a, .int b] where
  result op s hs hkinds := by
    cases op <;> cases hs <;> cases hkinds
    case idiv | irem => exact ⟨_, rfl, quotient_kind (by simp [DividesByZero])⟩
    all_goals exact known_of_no_division rfl (by decide) rfl
  none op s hs hkinds := by
    cases op <;> cases hs <;> first | rfl | exact absurd rfl hkinds

theorem onLongs_covers
    (a b : Int64) :
    Covers (onLongs? a b) [.long a, .long b] where
  result op s hs hkinds := by
    cases op <;> cases hs <;> cases hkinds
    case ldiv | lrem => exact ⟨_, rfl, quotient_kind (by simp [DividesByZero])⟩
    all_goals exact known_of_no_division rfl (by decide) rfl
  none op s hs hkinds := by
    cases op <;> cases hs <;> first | rfl | exact absurd rfl hkinds

theorem onLongInt_covers
    (a : Int64)
    (b : Int32) :
    Covers (onLongInt? a b) [.long a, .int b] where
  result op s hs hkinds := by
    cases op <;> cases hs <;> cases hkinds <;> exact known_of_no_division rfl (by decide) rfl
  none op s hs hkinds := by
    cases op <;> cases hs <;> first | rfl | exact absurd rfl hkinds

theorem onFloats_covers
    (a b : Float32) :
    Covers (onFloats? a b) [.float a, .float b] where
  result op s hs hkinds := by
    cases op <;> cases hs <;> cases hkinds <;> exact known_of_no_division rfl (by decide) rfl
  none op s hs hkinds := by
    cases op <;> cases hs <;> first | rfl | exact absurd rfl hkinds

theorem onDoubles_covers
    (a b : Float) :
    Covers (onDoubles? a b) [.double a, .double b] where
  result op s hs hkinds := by
    cases op <;> cases hs <;> cases hkinds <;> exact known_of_no_division rfl (by decide) rfl
  none op s hs hkinds := by
    cases op <;> cases hs <;> first | rfl | exact absurd rfl hkinds

end Tables

/-- Literals that no arithmetic is over have no results. -/
theorem covers_of_no_signature
    (h : literals.map Literal.kind ∉ Signature.operandRows) :
    Covers (fun _ => none) literals where
  result _ _ hs hkinds := absurd (hkinds ▸ Signature.namedKinds_mem hs) h
  none _ _ _ _ := rfl

/-- The results for one literal are those for its kind. -/
theorem known1_covers
    {l : Literal}
    (h : l ≠ .unknown) :
    Covers (known1? · l) [l] := by
  cases l with
  | unknown =>
      exact absurd rfl h
  | int v =>
      exact onInt_covers v
  | long v =>
      exact onLong_covers v
  | float v =>
      exact onFloat_covers v
  | double v =>
      exact onDouble_covers v
  | string | null =>
      exact covers_of_no_signature (by simp [Literal.kind, Signature.operandRows])

/-- The results for two literals are those for their kinds. -/
theorem known2_covers
    {l r : Literal}
    (hl : l ≠ .unknown)
    (hr : r ≠ .unknown) :
    Covers (known2? · l r) [l, r] := by
  cases l <;> cases r
  case int.int a b => exact onInts_covers a b
  case long.long a b => exact onLongs_covers a b
  case long.int a b => exact onLongInt_covers a b
  case float.float a b => exact onFloats_covers a b
  case double.double a b => exact onDoubles_covers a b
  all_goals
    first
    | exact absurd rfl hl
    | exact absurd rfl hr
    | exact covers_of_no_signature (by simp [Literal.kind, Signature.operandRows])

theorem Folded.signature
    (h : Folded op s literals outcome) :
    op.signature? = some s := by
  cases h <;> assumption

theorem Folded.length
    (h : Folded op s literals outcome) :
    literals.length = s.widths.length := by
  cases h <;> rfl

/-- Of known operands the result is looked up in a table that covers their kinds. -/
theorem Folded.exists_table
    (h : Folded op s literals outcome)
    (hknown : .unknown ∉ literals) :
    ∃ table, Covers table literals ∧
      outcome = orMismatch op (literals.map Literal.kind) (table op) := by
  cases h with
  | unary _ l =>
      have hl : l ≠ .unknown := by
        simpa [eq_comm] using hknown
      refine ⟨_, known1_covers hl, ?_⟩
      rw [fold1, if_pos (l.isKnown_iff.2 hl)]
      rfl
  | binary _ l r =>
      obtain ⟨hl, hr⟩ : l ≠ .unknown ∧ r ≠ .unknown := by
        simpa [eq_comm] using hknown
      have hboth : (l.isKnown && r.isKnown) = true := by
        rw [l.isKnown_iff.2 hl, r.isKnown_iff.2 hr]
        rfl
      refine ⟨_, known2_covers hl hr, ?_⟩
      rw [fold2, if_pos hboth]
      rfl

/-- Of an operand that is not known the result is not known, whatever the kinds. -/
theorem Folded.unknown
    (h : Folded op s literals outcome)
    (hunknown : .unknown ∈ literals) :
    outcome = .ok .unknown := by
  cases h with
  | unary _ l =>
      rw [← List.mem_singleton.1 hunknown]
      exact fold1_unknown op
  | binary _ l r =>
      rcases List.mem_cons.1 hunknown with rfl | hunknown
      · exact fold2_unknown_left op r
      · rw [← List.mem_singleton.1 hunknown]
        exact fold2_unknown_right op l

/-- Of known operands of the named kinds there is a result, known or not. -/
theorem Folded.exists_ok
    (h : Folded op s literals outcome)
    (hknown : .unknown ∉ literals)
    (hkinds : literals.map Literal.kind = op.namedKinds literals.length) :
    ∃ l, outcome = .ok l ∧
      (DividesByZero op literals ∧ l = .unknown ∨
        ¬ DividesByZero op literals ∧ .ofKind l.kind = s.result) := by
  obtain ⟨table, hcovers, rfl⟩ := h.exists_table hknown
  rw [h.length] at hkinds
  obtain ⟨l, hl, hresult⟩ := hcovers.result op s h.signature hkinds.symm
  exact ⟨l, by rw [hl, orMismatch], hresult⟩

/-- Known operands are refused exactly if their kinds are not the named ones. -/
theorem Folded.mismatch_iff
    (h : Folded op s literals outcome)
    (hknown : .unknown ∉ literals) :
    outcome = .error (.literalMismatch op op.expectedKinds (literals.map Literal.kind)) ↔
      literals.map Literal.kind ≠ op.namedKinds literals.length := by
  constructor
  · intro herror hkinds
    obtain ⟨l, hl, _⟩ := h.exists_ok hknown hkinds
    rw [hl] at herror
    cases herror
  · intro hkinds
    obtain ⟨table, hcovers, rfl⟩ := h.exists_table hknown
    rw [h.length] at hkinds
    rw [hcovers.none op s h.signature hkinds.symm, orMismatch]

/-- Of known operands only a division by zero has no known result. -/
theorem Folded.unknown_iff
    {l : Literal}
    (h : Folded op s literals (.ok l))
    (hknown : .unknown ∉ literals) :
    l = .unknown ↔ DividesByZero op literals := by
  by_cases hkinds : literals.map Literal.kind = op.namedKinds literals.length
  · obtain ⟨k, hk, hresult⟩ := h.exists_ok hknown hkinds
    cases hk
    rcases hresult with ⟨hzero, rfl⟩ | ⟨hzero, hcategory⟩
    · exact ⟨fun _ => hzero, fun _ => rfl⟩
    · refine ⟨?_, fun hdivides => absurd hdivides hzero⟩
      rintro rfl
      exact absurd hcategory.symm (Signature.result_ne_top h.signature)
  · cases (h.mismatch_iff hknown).2 hkinds

/-- A value holds a literal of its kind. -/
theorem admits_ofKind
    (l : Literal) :
    (Category.ofKind l.kind).admits l = true := by
  cases l <;> rfl

/-- Nothing is known, or a literal of a kind. -/
def HasKind
    (l : Literal)
    (kind : Kind) :
    Prop :=
  l = .unknown ∨ l.kind = kind

theorem kinds_of_hasKind
    {kinds : List Kind}
    (h : List.Forall₂ HasKind literals kinds)
    (hknown : .unknown ∉ literals) :
    literals.map Literal.kind = kinds := by
  induction h with
  | nil =>
      rfl
  | cons hkind _ ih =>
      rw [List.mem_cons, not_or] at hknown
      rw [List.map_cons, hkind.resolve_left (Ne.symm hknown.1), ih hknown.2]

/-- Operands that are unknown or of the named kinds can be folded. -/
theorem Folded.exists_ok_of_hasKind
    (h : Folded op s literals outcome)
    (hkinds : List.Forall₂ HasKind literals (op.namedKinds literals.length)) :
    ∃ l, outcome = .ok l := by
  by_cases hunknown : .unknown ∈ literals
  · exact ⟨_, h.unknown hunknown⟩
  · obtain ⟨l, hl, _⟩ := h.exists_ok hunknown (kinds_of_hasKind hkinds hunknown)
    exact ⟨l, hl⟩

/-- The value of a result keeps its literal. -/
theorem Folded.kept
    {l : Literal}
    (h : Folded op s literals (.ok l)) :
    Value.ofLiteral s.result l = ⟨s.result, l, none⟩ := by
  have hadmits : s.result.admits l = true := by
    by_cases hunknown : .unknown ∈ literals
    · cases h.unknown hunknown
      exact Value.admits_unknown _
    · by_cases hkinds : literals.map Literal.kind = op.namedKinds literals.length
      · obtain ⟨k, hk, hresult⟩ := h.exists_ok hunknown hkinds
        cases hk
        rcases hresult with ⟨_, rfl⟩ | ⟨_, hcategory⟩
        · exact Value.admits_unknown _
        · rw [← hcategory]
          exact admits_ofKind l
      · cases (h.mismatch_iff hunknown).2 hkinds
  rw [Value.ofLiteral, if_pos hadmits]

end Fold
end SlotFlow
