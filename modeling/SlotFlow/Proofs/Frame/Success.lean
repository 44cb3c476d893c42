import SlotFlow.Proofs.Fold.Kinds
import SlotFlow.Proofs.Frame.Operations

/-!
# Operations that succeed

An operation on a frame that succeeds has taken slots off the stack and put others there,
and has left the rest of the stack as it was.

Main definitions:

* `Value.cells`: the slots that a value takes on the stack;
* `Frame.Exchanged`: frames of which one has other slots on top of its stack.

Main statements:

* `exists_of_bind_eq_ok`: operations in a row;
* `Frame.pushSized_exchanged`, `Frame.popMany_exchanged`, …: what operations on the stack
  have done if they succeed;
* `Frame.arithmetic_eq_ok`: what arithmetic has done.
-/

namespace SlotFlow

/-- Operations in a row succeed if each does where the one before it has led. -/
theorem exists_of_bind_eq_ok
    {σ α β : Type}
    {act : ExceptT Fault (StateM σ) α}
    {next : α → ExceptT Fault (StateM σ) β}
    {s u : σ}
    {b : β}
    (h : (act >>= next) s = (.ok b, u)) :
    ∃ a t, act s = (.ok a, t) ∧ next a t = (.ok b, u) := by
  rw [run_bind] at h
  rcases hact : act s with ⟨e | a, t⟩
  · rw [hact] at h
    cases h
  · rw [hact] at h
    exact ⟨a, t, rfl, h⟩

/-- The slots that a value takes on the stack, top first. -/
def Value.cells
    (v : Value) :
    List Value :=
  if v.isWide then [.top, v] else [v]

theorem Value.untagged_cells
    {v : Value}
    (h : v.provenance = none) :
    ∀ w ∈ v.cells, w.provenance = none := by
  intro w hw
  rw [cells] at hw
  split at hw
  · rcases List.mem_cons.1 hw with rfl | hw
    · rfl
    · rw [List.mem_singleton.1 hw]
      exact h
  · rw [List.mem_singleton.1 hw]
    exact h

namespace Frame

variable {f g h : Frame} {popped more : Nat} {cells others : List Value}

/-- The second frame has other slots in place of the top ones of the first. -/
structure Exchanged
    (f : Frame)
    (popped : Nat)
    (cells : List Value)
    (g : Frame) : Prop where
  locals : g.locals = f.locals
  enough : popped ≤ f.stack.length
  stack : g.stack = cells ++ f.stack.drop popped

theorem Exchanged.refl
    (f : Frame) :
    Exchanged f 0 [] f :=
  ⟨rfl, Nat.zero_le _, rfl⟩

/-- Slots are popped after others. -/
theorem Exchanged.thenPop
    (hfg : Exchanged f popped [] g)
    (hgh : Exchanged g more cells h) :
    Exchanged f (popped + more) cells h := by
  have hstack : g.stack = f.stack.drop popped := hfg.stack
  have henough := hgh.enough
  rw [hstack, List.length_drop] at henough
  have hpopped := hfg.enough
  refine ⟨hgh.locals.trans hfg.locals, by omega, ?_⟩
  rw [hgh.stack, hstack, List.drop_drop]

/-- Slots are pushed after others. -/
theorem Exchanged.thenPush
    (hfg : Exchanged f popped cells g)
    (hgh : Exchanged g 0 others h) :
    Exchanged f popped (others ++ cells) h := by
  refine ⟨hgh.locals.trans hfg.locals, hfg.enough, ?_⟩
  rw [hgh.stack, List.drop_zero, hfg.stack, List.append_assoc]

section Operations

theorem eq_of_whenReachable_eq_ok
    {α : Type}
    {act : Frame → Except Fault α × Frame}
    {a : α}
    (hact : whenReachable act f = (.ok a, g)) :
    act f = (.ok a, g) := by
  unfold whenReachable at hact
  split at hact
  · exact hact
  · cases hact

theorem reachable_of_whenReachable_eq_ok
    {α : Type}
    {act : Frame → Except Fault α × Frame}
    {a : α}
    (hact : whenReachable act f = (.ok a, g)) :
    f.reachable = true := by
  unfold whenReachable at hact
  split at hact
  · assumption
  · cases hact

theorem getLocal_eq_ok
    {index : Nat}
    {v : Value}
    (hget : getLocal index f = (.ok v, g)) :
    v = Locals.read f.locals index ∧ Exchanged f 0 [] g := by
  have hrun := eq_of_whenReachable_eq_ok hget
  cases hrun
  exact ⟨rfl, rfl, Nat.zero_le _, rfl⟩

theorem setLocal_eq_ok
    {index : Nat}
    {v : Value}
    (hset : setLocal index v f = (.ok (), g)) :
    g = f.writeLocal index v := by
  have hrun := eq_of_whenReachable_eq_ok hset
  cases hrun
  rfl

/-- A push that succeeds has found the frame reachable and room for one slot. -/
theorem push_eq_ok
    {v : Value}
    (hpush : push v f = (.ok (), g)) :
    f.reachable = true ∧ f.exceeded? (f.stack.length + 1) = none ∧ g = f.pushed v := by
  have hreachable := reachable_of_whenReachable_eq_ok hpush
  have hrun := eq_of_whenReachable_eq_ok hpush
  split at hrun
  · cases hrun
  · rename_i hroom
    cases hrun
    exact ⟨hreachable, hroom, rfl⟩

theorem push_exchanged
    {v : Value}
    (hpush : push v f = (.ok (), g)) :
    Exchanged f 0 [v] g := by
  obtain ⟨_, _, rfl⟩ := push_eq_ok hpush
  exact ⟨rfl, Nat.zero_le _, rfl⟩

theorem pushSized_exchanged
    {v : Value}
    (hpush : pushSized v f = (.ok (), g)) :
    Exchanged f 0 v.cells g := by
  obtain ⟨_, mid, hfirst, hsecond⟩ := exists_of_bind_eq_ok hpush
  rw [Value.cells]
  split
  · rename_i hwide
    rw [if_pos hwide] at hsecond
    exact (push_exchanged hfirst).thenPush (push_exchanged hsecond)
  · rename_i hnarrow
    rw [if_neg hnarrow] at hsecond
    cases hsecond
    exact push_exchanged hfirst

theorem pop_exchanged
    {v : Value}
    (hpop : pop f = (.ok v, g)) :
    f.stack.head? = some v ∧ Exchanged f 1 [] g := by
  have hrun := eq_of_whenReachable_eq_ok hpop
  split at hrun
  · cases hrun
  · rename_i hstack
    cases hrun
    refine ⟨by rw [hstack]; rfl, rfl, ?_, ?_⟩
    · simp [hstack]
    · simp [hstack]

theorem popWide_exchanged
    {count : Nat}
    {v : Value}
    (hpop : popWide count f = (.ok v, g)) :
    Exchanged f count [] g := by
  have hrun := eq_of_whenReachable_eq_ok hpop
  split at hrun
  · rename_i n v rest hdrop
    cases hrun
    have hrest : f.stack.drop (n + 1) = rest := by
      rw [← List.tail_drop]
      exact congrArg List.tail hdrop
    have hlength := congrArg List.length hdrop
    simp only [List.length_drop, List.length_cons] at hlength
    exact ⟨rfl, by omega, hrest.symm⟩
  · cases hrun

/-- The value that is popped is the deepest of the slots. -/
theorem popWide_value
    {count : Nat}
    {v : Value}
    (hpop : popWide count f = (.ok v, g)) :
    0 < count ∧ f.stack[count - 1]? = some v := by
  have hrun := eq_of_whenReachable_eq_ok hpop
  split at hrun
  · rename_i n v rest hdrop
    cases hrun
    refine ⟨Nat.succ_pos n, ?_⟩
    rw [← List.head?_drop, hdrop]
    rfl
  · cases hrun

theorem popMany_exchanged
    {count : Nat}
    (hpop : popMany count f = (.ok (), g)) :
    Exchanged f count [] g := by
  have hrun := eq_of_whenReachable_eq_ok hpop
  split at hrun
  · cases hrun
  · rename_i henough
    cases hrun
    exact ⟨rfl, Nat.le_of_not_lt henough, rfl⟩

theorem orInvalid_eq_ok
    {α : Type}
    {descriptor : String}
    {read : Option α}
    {a : α}
    (hread : orInvalid descriptor read f = (.ok a, g)) :
    read = some a ∧ g = f := by
  cases read with
  | none =>
      cases hread
  | some b =>
      cases hread
      exact ⟨rfl, rfl⟩

theorem popDescriptor_exchanged
    {descriptor : String}
    (hpop : popDescriptor descriptor f = (.ok (), g)) :
    ∃ count, poppedSlots? descriptor = some count ∧ Exchanged f count [] g := by
  obtain ⟨count, mid, hread, hmany⟩ := exists_of_bind_eq_ok hpop
  obtain ⟨hcount, rfl⟩ := orInvalid_eq_ok hread
  exact ⟨count, hcount, popMany_exchanged hmany⟩

/-- Slots that are popped one by one are those at the top. -/
theorem popCells_exchanged
    {count : Nat}
    (hpop : Machine.popCells count f = (.ok cells, g)) :
    cells = f.stack.take count ∧ Exchanged f count [] g := by
  induction count generalizing f cells with
  | zero =>
      cases hpop
      exact ⟨rfl, .refl _⟩
  | succ count ih =>
      obtain ⟨v, mid, hfirst, hrest⟩ := exists_of_bind_eq_ok hpop
      obtain ⟨rest, last, hcells, hresult⟩ := exists_of_bind_eq_ok hrest
      cases hresult
      obtain ⟨hhead, hone⟩ := pop_exchanged hfirst
      obtain ⟨rfl, hmore⟩ := ih hcells
      obtain ⟨below, hstack⟩ := List.head?_eq_some_iff.1 hhead
      have hmid : mid.stack = below := by
        rw [hone.stack, hstack]
        rfl
      refine ⟨?_, ?_⟩
      · rw [hmid, hstack, List.take_succ_cons]
      · rw [Nat.add_comm]
        exact hone.thenPop hmore

theorem pushCells_exchanged
    (hpush : Machine.pushCells cells f = (.ok (), g)) :
    Exchanged f 0 cells.reverse g := by
  induction cells generalizing f with
  | nil =>
      cases hpush
      exact .refl _
  | cons v rest ih =>
      obtain ⟨_, mid, hfirst, hrest⟩ := exists_of_bind_eq_ok hpush
      rw [List.reverse_cons]
      exact (push_exchanged hfirst).thenPush (ih hrest)

/-- The slots of a field's value or a method's result, top first; there may be none. -/
def loadedCells
    (field : Option String) :
    Option FieldType → List Value
  | none => []
  | some type => (loaded type field).cells

theorem pushDescriptor_exchanged
    {descriptor : String}
    {field : Option String}
    (hpush : pushDescriptor descriptor field f = (.ok (), g)) :
    ∃ type, pushedType? descriptor = some type ∧ Exchanged f 0 (loadedCells field type) g := by
  obtain ⟨type, mid, hread, hsized⟩ := exists_of_bind_eq_ok hpush
  obtain ⟨htype, rfl⟩ := orInvalid_eq_ok hread
  refine ⟨type, htype, ?_⟩
  cases type with
  | none =>
      cases hsized
      exact .refl _
  | some type =>
      exact pushSized_exchanged hsized

theorem folded_eq_ok
    {folding : Bool}
    {result : Except Fault Literal}
    {l : Literal}
    (hfolded : Machine.folded folding result f = (.ok l, g)) :
    g = f := by
  unfold Machine.folded at hfolded
  split at hfolded
  · cases result with
    | ok _ =>
        cases hfolded
        rfl
    | error _ =>
        cases hfolded
  · cases hfolded
    rfl

/-- What folding gives is pushed if it is asked for. -/
theorem folded_literal
    {folding : Bool}
    {result : Except Fault Literal}
    {l : Literal}
    (hfolded : Machine.folded folding result f = (.ok l, g)) :
    if folding then result = .ok l else l = .unknown := by
  unfold Machine.folded at hfolded
  cases folding with
  | false =>
      cases hfolded
      rfl
  | true =>
      cases result with
      | ok _ =>
          cases hfolded
          rfl
      | error _ =>
          cases hfolded

theorem read_of_popWide
    {count : Nat}
    {v : Value}
    (hpop : popWide count f = (.ok v, g)) :
    Locals.read f.stack (count - 1) = v := by
  rw [Locals.read, (popWide_value hpop).2]
  rfl

/-- Arithmetic that succeeds has put what folding gives in place of the operands. -/
theorem arithmetic_eq_ok
    {folding : Bool}
    {op : Opcode}
    {signature : Signature}
    (harithmetic : Machine.arithmetic folding op signature f = (.ok (), g)) :
    ∃ l, (if folding then signature.fold op f.stack = .ok l else l = .unknown) ∧
      Exchanged f signature.popped (Value.ofLiteral signature.result l).cells g := by
  cases signature with
  | unary operand result =>
      obtain ⟨v, mid, hpop, hrest⟩ := exists_of_bind_eq_ok harithmetic
      obtain ⟨l, same, hfolded, hpush⟩ := exists_of_bind_eq_ok hrest
      have hliteral := folded_literal hfolded
      obtain rfl := folded_eq_ok hfolded
      refine ⟨l, ?_, (popWide_exchanged hpop).thenPop (pushSized_exchanged hpush)⟩
      rwa [Signature.fold, read_of_popWide hpop]
  | binary left right result =>
      obtain ⟨r, mid, hright, hrest⟩ := exists_of_bind_eq_ok harithmetic
      obtain ⟨v, next, hleft, hrest⟩ := exists_of_bind_eq_ok hrest
      obtain ⟨l, same, hfolded, hpush⟩ := exists_of_bind_eq_ok hrest
      have hliteral := folded_literal hfolded
      obtain rfl := folded_eq_ok hfolded
      have hpops := (popWide_exchanged hright).thenPop (popWide_exchanged hleft)
      refine ⟨l, ?_, hpops.thenPop (pushSized_exchanged hpush)⟩
      -- the left operand is read where the right one has been popped
      have hdeep := read_of_popWide hleft
      have hmid : mid.stack = f.stack.drop right.slots := (popWide_exchanged hright).stack
      have hpos := slots_pos left
      have hindex : right.slots + (left.slots - 1) = right.slots + left.slots - 1 := by
        omega
      rw [hmid, read_drop, hindex] at hdeep
      rwa [Signature.fold, read_of_popWide hright, hdeep]

/-- Arithmetic puts a value that it has made in place of its operands. -/
theorem arithmetic_exchanged
    {folding : Bool}
    {op : Opcode}
    {signature : Signature}
    (harithmetic : Machine.arithmetic folding op signature f = (.ok (), g)) :
    ∃ l, Exchanged f signature.popped (Value.ofLiteral signature.result l).cells g := by
  obtain ⟨l, _, hexchanged⟩ := arithmetic_eq_ok harithmetic
  exact ⟨l, hexchanged⟩

end Operations

end Frame
end SlotFlow
