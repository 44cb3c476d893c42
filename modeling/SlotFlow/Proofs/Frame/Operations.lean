import SlotFlow.Proofs.Frame.Account

/-!
# Accounts of the operations on frames

Main statements:

* `push_account`, `pushSized_account`, `pushCells_account`: what is pushed;
* `pop_account`, `popWide_account`, `popMany_account`, `popCells_account`: what is popped,
  and which values that gives;
* `popDescriptor_account`, `pushDescriptor_account`: slots that a descriptor names;
* `arithmetic_account`: operands and result of arithmetic, and the faults of folding.
-/

namespace SlotFlow

/-- Slots of the values of a type, top first; there are none of no type. -/
def resultSlots
    (type : Option FieldType) :
    List Slot :=
  (type.map fun t => (Category.ofFieldType t).slots).getD []

/-- Slots that the operands of arithmetic take. -/
def Signature.popped : Signature → Nat
  | unary operand _ => operand.slots
  | binary left right _ => right.slots + left.slots

/-- What folding makes of the operands on a stack. -/
def Signature.fold
    (op : Opcode)
    (stack : List Value) :
    Signature → Except Fault Literal
  | unary operand _ => Fold.fold1 op (Locals.read stack (operand.slots - 1)).literal
  | binary left right _ =>
      Fold.fold2 op (Locals.read stack (right.slots + left.slots - 1)).literal
        (Locals.read stack (right.slots - 1)).literal

namespace Frame

variable {f : Frame} {faulty : Fault → Prop}

/-- Operations on a frame are seen as they are. -/
abbrev view
    (f : Frame) :
    Frame :=
  f

theorem whenReachable_run
    {α : Type}
    (hf : f.Ready)
    (act : Frame → Except Fault α × Frame) :
    whenReachable act f = act f := by
  rw [whenReachable, if_pos hf.reachable]

/-- Slots are popped where there are enough. -/
theorem popMany_run
    {count : Nat}
    (hreachable : f.reachable = true)
    (henough : count ≤ f.stack.length) :
    popMany count f = (.ok (), { f with stack := f.stack.drop count }) := by
  rw [popMany, whenReachable, if_pos hreachable, if_neg (Nat.not_lt.2 henough)]

theorem push_account
    (hf : f.Ready)
    (v : Value) :
    Account view f 0 [v.slot] faulty (fun _ g => g = f.pushed v) (push v f) := by
  rw [push, whenReachable_run hf]
  cases hroom : f.exceeded? (f.stack.length + 1) with
  | some limit =>
      exact .overflow (Nat.zero_le _) hroom
  | none =>
      exact .done (Nat.zero_le _) hroom ⟨rfl, rfl, rfl, rfl⟩ rfl

theorem pushSized_account
    (hf : f.Ready)
    (v : Value) :
    Account view f 0 v.category.slots faulty (fun _ _ => True) (pushSized v f) := by
  by_cases hwide : v.isWide = true
  · have hslots : v.category.slots = [.empty] ++ [v.slot] := by
      change (if v.isWide = true then _ else _) = _
      rw [if_pos hwide]
      rfl
    rw [hslots]
    apply Account.bind_push hf (push_account hf v)
    intro _ g _ hg _
    rw [if_pos hwide]
    exact (push_account hg .top).weaken fun _ _ _ => trivial
  · have hslots : v.category.slots = [] ++ [v.slot] := by
      change (if v.isWide = true then _ else _) = _
      rw [if_neg hwide]
      rfl
    rw [hslots]
    apply Account.bind_push hf (push_account hf v)
    intro _ g _ hg _
    rw [if_neg hwide]
    exact .unchanged hg ⟨rfl, rfl, rfl, rfl⟩ trivial

theorem pop_account
    (hf : f.Ready) :
    Account view f 1 [] faulty (fun v g => f.stack = v :: g.stack) (pop f) := by
  rw [pop, whenReachable_run hf]
  rcases hstack : f.stack with _ | ⟨v, rest⟩
  · apply Account.underflow
    simp [hstack]
  · refine .done ?_ (exceeded_of_ge hf.fits (Nat.sub_le _ 1)) ⟨rfl, rfl, rfl, ?_⟩ rfl
    · simp [hstack]
    · simp [hstack]

theorem popWide_account
    (hf : f.Ready)
    {count : Nat}
    (hcount : 0 < count) :
    Account view f count [] faulty
      (fun v g => Locals.read f.stack (count - 1) = v ∧ g.stack = f.stack.drop count)
      (popWide count f) := by
  obtain ⟨n, rfl⟩ : ∃ n, count = n + 1 := ⟨count - 1, by omega⟩
  rw [popWide, whenReachable_run hf]
  simp only [Nat.add_sub_cancel]
  rcases hstack : f.stack.drop n with _ | ⟨v, rest⟩
  · have hlength : f.stack.length ≤ n := List.drop_eq_nil_iff.1 hstack
    exact .underflow (Nat.lt_succ_of_le hlength)
  · have hlength : n < f.stack.length := by
      by_cases h : n < f.stack.length
      · exact h
      · rw [List.drop_eq_nil_iff.2 (Nat.le_of_not_lt h)] at hstack
        cases hstack
    have hcons := List.drop_eq_getElem_cons hlength
    rw [hstack] at hcons
    injection hcons with hv hrest
    have hread : Locals.read f.stack n = v := by
      rw [Locals.read, List.getElem?_eq_getElem hlength, hv]
      rfl
    refine .done hlength (exceeded_of_ge hf.fits (Nat.sub_le _ _)) ⟨rfl, rfl, rfl, ?_⟩ ⟨hread, hrest⟩
    rw [hrest]
    rfl

theorem popMany_account
    (hf : f.Ready)
    (count : Nat) :
    Account view f count [] faulty (fun _ g => g.stack = f.stack.drop count)
      (popMany count f) := by
  rw [popMany, whenReachable_run hf]
  by_cases h : f.stack.length < count
  · rw [if_pos h]
    exact .underflow h
  · rw [if_neg h]
    exact .done (Nat.le_of_not_lt h) (exceeded_of_ge hf.fits (Nat.sub_le _ _))
      ⟨rfl, rfl, rfl, rfl⟩ rfl

theorem getLocal_account
    (hf : f.Ready)
    (index : Nat) :
    Account view f 0 [] faulty (fun v _ => Locals.read f.locals index = v)
      (getLocal index f) := by
  rw [getLocal, whenReachable_run hf]
  exact .unchanged hf ⟨rfl, rfl, rfl, rfl⟩ rfl

theorem setLocal_account
    (hf : f.Ready)
    (index : Nat)
    (v : Value) :
    Account view f 0 [] faulty (fun _ _ => True) (setLocal index v f) := by
  rw [setLocal, whenReachable_run hf]
  exact .unchanged hf ⟨rfl, rfl, rfl, rfl⟩ trivial

theorem popDescriptor_account
    (hf : f.Ready)
    {descriptor : String}
    {count : Nat}
    (h : poppedSlots? descriptor = some count) :
    Account view f count [] faulty (fun _ g => g.stack = f.stack.drop count)
      (popDescriptor descriptor f) := by
  have hread : popDescriptor descriptor f = popMany count f := by
    rw [popDescriptor, run_bind, h]
    rfl
  rw [hread]
  exact popMany_account hf count

theorem pushDescriptor_account
    (hf : f.Ready)
    {descriptor : String}
    {type : Option FieldType}
    (h : pushedType? descriptor = some type)
    (field : Option String) :
    Account view f 0 (resultSlots type) faulty (fun _ _ => True)
      (pushDescriptor descriptor field f) := by
  rw [pushDescriptor, run_bind, h]
  cases type with
  | none =>
      exact .unchanged hf ⟨rfl, rfl, rfl, rfl⟩ trivial
  | some type =>
      exact pushSized_account hf (loaded type field)

theorem popCells_account
    (hf : f.Ready)
    (count : Nat) :
    Account view f count [] faulty
      (fun cells g => cells = f.stack.take count ∧ g.stack = f.stack.drop count)
      (Machine.popCells count f) := by
  induction count generalizing f with
  | zero =>
      exact .unchanged hf ⟨rfl, rfl, rfl, rfl⟩ ⟨rfl, rfl⟩
  | succ count ih =>
      rw [Machine.popCells, Nat.add_comm count 1]
      apply Account.bind_pop hf (pop_account hf)
      intro v g _ hg hstack
      apply Account.bind_quiet hg (ih hg)
      rintro rest h _ hh ⟨hrest, hleft⟩
      refine .unchanged hh ⟨rfl, rfl, rfl, rfl⟩ ?_
      rw [Nat.add_comm 1 count, hstack, hrest]
      exact ⟨rfl, hleft⟩

theorem pushCells_account
    (hf : f.Ready)
    (cells : List Value) :
    Account view f 0 (cells.map Value.slot).reverse faulty (fun _ _ => True)
      (Machine.pushCells cells f) := by
  induction cells generalizing f with
  | nil =>
      exact .unchanged hf ⟨rfl, rfl, rfl, rfl⟩ trivial
  | cons v rest ih =>
      rw [List.map_cons, List.reverse_cons]
      apply Account.bind_push hf (push_account hf v)
      intro _ g _ hg _
      exact ih hg

theorem folded_account
    (hf : f.Ready)
    (folding : Bool)
    (result : Except Fault Literal) :
    Account view f 0 [] (fun e => folding = true ∧ result = .error e) (fun _ _ => True)
      (Machine.folded folding result f) := by
  unfold Machine.folded
  cases folding with
  | false =>
      exact .unchanged hf ⟨rfl, rfl, rfl, rfl⟩ trivial
  | true =>
      cases result with
      | ok l =>
          exact .unchanged hf ⟨rfl, rfl, rfl, rfl⟩ trivial
      | error e =>
          exact .fault (Nat.zero_le _) ⟨rfl, rfl⟩

theorem slots_pos
    (w : Width) :
    0 < w.slots := by
  cases w <;> decide

theorem read_drop
    (cells : List Value)
    (count index : Nat) :
    Locals.read (cells.drop count) index = Locals.read cells (count + index) := by
  rw [Locals.read, Locals.read, List.getElem?_drop]

/-- Folding and pushing what it gives. -/
theorem foldedPush_account
    (hf : f.Ready)
    (folding : Bool)
    (result : Except Fault Literal)
    (category : Category) :
    Account view f 0 category.slots (fun e => folding = true ∧ result = .error e)
      (fun _ _ => True)
      ((do
        let l ← Machine.folded folding result
        pushSized (.ofLiteral category l) : FrameM Unit) f) := by
  rw [← List.append_nil category.slots]
  apply Account.bind_push hf (folded_account hf folding result)
  intro l g _ hg _
  exact pushSized_account hg (.ofLiteral category l)

theorem arithmetic_account
    (hf : f.Ready)
    (folding : Bool)
    (op : Opcode)
    (signature : Signature) :
    Account view f signature.popped signature.result.slots
      (fun e => folding = true ∧ signature.fold op f.stack = .error e) (fun _ _ => True)
      (Machine.arithmetic folding op signature f) := by
  cases signature with
  | unary operand result =>
      change Account view f (operand.slots + 0) _ _ _ _
      apply Account.bind_pop hf (popWide_account hf (slots_pos operand))
      rintro v g _ hg ⟨hread, _⟩
      rw [Signature.fold, hread]
      exact foldedPush_account hg folding _ _
  | binary left right result =>
      change Account view f (right.slots + (left.slots + 0)) _ _ _ _
      apply Account.bind_pop hf (popWide_account hf (slots_pos right))
      rintro r g _ hg ⟨hright, hstack⟩
      apply Account.bind_pop hg (popWide_account hg (slots_pos left))
      rintro v h _ hh ⟨hleft, _⟩
      have hpos := slots_pos left
      have hindex : right.slots + (left.slots - 1) = right.slots + left.slots - 1 := by
        omega
      rw [hstack, read_drop, hindex] at hleft
      rw [Signature.fold, hleft, hright]
      exact foldedPush_account hh folding _ _

end Frame
end SlotFlow
