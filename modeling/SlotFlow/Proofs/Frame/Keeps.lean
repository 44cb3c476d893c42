import SlotFlow.Machine
import SlotFlow.Proofs.Value.Built

/-!
# What operations keep

Frames and machines are changed by operations that may fail and leave a state either
way. A condition on states is kept by all of them if it is kept by the few changes
that a frame can undergo.

Main definitions:

* `Keeps`: an operation keeps a condition, and what it returns has a property;
* `Frame.Stable`: a condition that every change of a frame keeps.

Main statements:

* `run_bind`: how an operation runs after another one;
* `Keeps.bind`: operations one after the other;
* `Frame.Stable.pushSized`, `Frame.Stable.popWide`, …: the operations on frames.
-/

namespace SlotFlow

section Keeps

variable {σ α β : Type}

/-- The second operation runs on what the first one has left, if that succeeded. -/
theorem run_bind
    (act : ExceptT Fault (StateM σ) α)
    (next : α → ExceptT Fault (StateM σ) β)
    (s : σ) :
    (act >>= next) s =
      match act s with
      | (.ok a, t) => next a t
      | (.error e, t) => (.error e, t) := by
  change ExceptT.bindCont next (act s).1 (act s).2 = _
  rcases act s with ⟨_ | _, t⟩ <;> rfl

/-- Whether or not it fails, an operation keeps a condition; what it returns has a property. -/
def Keeps
    (I : σ → Prop)
    (P : α → Prop)
    (act : ExceptT Fault (StateM σ) α) :
    Prop :=
  ∀ s, I s → I (act s).2 ∧ ∀ a, (act s).1 = .ok a → P a

theorem Keeps.bind
    {I : σ → Prop}
    {P : α → Prop}
    {Q : β → Prop}
    {act : ExceptT Fault (StateM σ) α}
    {next : α → ExceptT Fault (StateM σ) β}
    (h : Keeps I P act)
    (hnext : ∀ a, P a → Keeps I Q (next a)) :
    Keeps I Q (act >>= next) := by
  intro s hs
  obtain ⟨hkeep, hreturn⟩ := h s hs
  rw [run_bind]
  rcases hact : act s with ⟨e | a, t⟩
  · rw [hact] at hkeep
    refine ⟨hkeep, ?_⟩
    intro b hb
    cases hb
  · rw [hact] at hkeep hreturn
    exact hnext a (hreturn a rfl) t hkeep

theorem keeps_pure
    {I : σ → Prop}
    {P : α → Prop}
    {a : α}
    (h : P a) :
    Keeps I P (pure a) := by
  intro s hs
  refine ⟨hs, ?_⟩
  intro b hb
  cases hb
  exact h

theorem keeps_throw
    {I : σ → Prop}
    {P : α → Prop}
    (e : Fault) :
    Keeps I P (throw e) := by
  intro s hs
  refine ⟨hs, ?_⟩
  intro a ha
  cases ha

end Keeps

namespace Frame

/-- The frame whose locals and stack are those of a frame record. -/
def reset
    (f : Frame)
    (locals stack : List VerificationType) :
    Frame :=
  { f with
    locals := expand locals
    stack := (expand stack).reverse
    reachable := true
    maxStack := max f.maxStack (expand stack).length
    maxLocals := max f.maxLocals (expand locals).length }

/--
A condition on frames that holds of the empty one and that every change keeps. Values
that come into a frame can be assumed to have a property that those in it have, and that
holds of all values made without reference to a field.
-/
structure Stable
    (P : Value → Prop)
    (I : Frame → Prop) : Prop where
  plain : ∀ {v : Value}, v.Plain → P v
  values : ∀ {f}, I f → ∀ v ∈ f.locals ++ f.stack, P v
  empty : ∀ limit, I (empty limit)
  executing : ∀ {f} op, I f → I (f.executing op)
  touched : ∀ {f} n, I f → I { f with maxLocals := max f.maxLocals n }
  written : ∀ {f v} index, I f → f.reachable = true → P v → I (f.writeLocal index v)
  pushed :
    ∀ {f v},
      I f → f.reachable = true → P v → f.exceeded? (f.stack.length + 1) = none →
        I (f.pushed v)
  dropped : ∀ {f} n, I f → I { f with stack := f.stack.drop n }
  reset :
    ∀ {f} locals stack,
      I f → f.exceeded? (expand stack).length = none → I (f.reset locals stack)
  replaced : ∀ {f new} old, I f → P new → I (f.replaceAll old new)
  left : ∀ {f}, I f → I f.leave

namespace Stable

variable {P : Value → Prop} {I : Frame → Prop}

theorem read
    (hI : Stable P I)
    {f : Frame}
    (hf : I f)
    (index : Nat) :
    P (Locals.read f.locals index) := by
  rw [Locals.read]
  cases hcell : f.locals[index]? with
  | none =>
      exact hI.plain ⟨.top, rfl⟩
  | some v =>
      exact hI.values hf v (List.mem_append_left _ (List.mem_of_getElem? hcell))

theorem whenReachable
    {α : Type}
    {Q : α → Prop}
    {act : Frame → Except Fault α × Frame}
    (h :
      ∀ f, f.reachable = true → I f → I (act f).2 ∧ ∀ a, (act f).1 = .ok a → Q a) :
    Keeps I Q (Frame.whenReachable act) := by
  intro f hf
  unfold Frame.whenReachable
  by_cases hreachable : f.reachable = true
  · rw [if_pos hreachable]
    exact h f hreachable hf
  · rw [if_neg hreachable]
    exact keeps_throw .unreachable f hf

theorem getLocal
    (hI : Stable P I)
    (index : Nat) :
    Keeps I P (Frame.getLocal index) := by
  apply whenReachable
  intro f _ hf
  refine ⟨hI.touched (index + 1) hf, ?_⟩
  intro v hv
  cases hv
  exact hI.read hf index

theorem setLocal
    (hI : Stable P I)
    (index : Nat)
    {v : Value}
    (hv : P v) :
    Keeps I (fun _ => True) (Frame.setLocal index v) := by
  apply whenReachable
  intro f hreachable hf
  exact ⟨hI.written index hf hreachable hv, fun _ _ => trivial⟩

theorem push
    (hI : Stable P I)
    {v : Value}
    (hv : P v) :
    Keeps I (fun _ => True) (Frame.push v) := by
  apply whenReachable
  intro f hreachable hf
  cases hroom : f.exceeded? (f.stack.length + 1) with
  | some limit =>
      exact keeps_throw _ f hf
  | none =>
      exact ⟨hI.pushed hf hreachable hv hroom, fun _ _ => trivial⟩

theorem pushSized
    (hI : Stable P I)
    {v : Value}
    (hv : P v) :
    Keeps I (fun _ => True) (Frame.pushSized v) := by
  apply (hI.push hv).bind
  intro _ _
  split
  · exact hI.push (hI.plain ⟨.top, rfl⟩)
  · exact keeps_pure trivial

theorem pop
    (hI : Stable P I) :
    Keeps I P Frame.pop := by
  apply whenReachable
  intro f _ hf
  rcases hstack : f.stack with _ | ⟨v, rest⟩
  · exact keeps_throw _ f hf
  · have hdrop := hI.dropped 1 hf
    rw [hstack] at hdrop
    refine ⟨hdrop, ?_⟩
    intro w hw
    cases hw
    exact hI.values hf v (by simp [hstack])

theorem popWide
    (hI : Stable P I)
    (count : Nat) :
    Keeps I P (Frame.popWide count) := by
  apply whenReachable
  intro f _ hf
  cases count with
  | zero =>
      exact keeps_throw _ f hf
  | succ n =>
      simp only [Nat.add_sub_cancel]
      rcases hstack : f.stack.drop n with _ | ⟨v, rest⟩
      · exact keeps_throw _ f hf
      · have hrest : rest = f.stack.drop (n + 1) := by
          rw [← List.tail_drop, hstack, List.tail_cons]
        have hmem : v ∈ f.stack.drop n := by
          rw [hstack]
          exact List.mem_cons_self
        rw [hrest]
        refine ⟨hI.dropped (n + 1) hf, ?_⟩
        intro w hw
        cases hw
        exact hI.values hf v (List.mem_append_right _ (List.mem_of_mem_drop hmem))

theorem popMany
    (hI : Stable P I)
    (count : Nat) :
    Keeps I (fun _ => True) (Frame.popMany count) := by
  apply whenReachable
  intro f _ hf
  split
  · exact keeps_throw _ f hf
  · exact ⟨hI.dropped count hf, fun _ _ => trivial⟩

theorem orInvalid
    {α : Type}
    (descriptor : String)
    (read : Option α) :
    Keeps I (fun _ => True) (Frame.orInvalid descriptor read) := by
  cases read with
  | none =>
      exact keeps_throw _
  | some a =>
      exact keeps_pure trivial

theorem popDescriptor
    (hI : Stable P I)
    (descriptor : String) :
    Keeps I (fun _ => True) (Frame.popDescriptor descriptor) := by
  apply (orInvalid descriptor _).bind
  intro count _
  exact hI.popMany count

theorem loaded_built
    (type : FieldType)
    (field : Option String) :
    (Frame.loaded type field).Built := by
  rw [Value.built_iff]
  exact Value.admits_unknown _

theorem pushDescriptor
    (hI : Stable P I)
    {descriptor : String}
    {field : Option String}
    (h : ∀ type, pushedType? descriptor = some (some type) → P (loaded type field)) :
    Keeps I (fun _ => True) (Frame.pushDescriptor descriptor field) := by
  unfold Frame.pushDescriptor
  cases hpushed : pushedType? descriptor with
  | none =>
      exact keeps_throw _
  | some type =>
      cases type with
      | none =>
          exact keeps_pure trivial
      | some type =>
          exact hI.pushSized (h type hpushed)

theorem resetTo
    (hI : Stable P I)
    (locals stack : List VerificationType) :
    Keeps I (fun _ => True) (Frame.resetTo locals stack) := by
  intro f hf
  unfold Frame.resetTo
  cases hroom : f.exceeded? (expand stack).length with
  | some limit =>
      simp only [hroom]
      exact keeps_throw _ f hf
  | none =>
      simp only [hroom]
      exact ⟨hI.reset locals stack hf hroom, fun _ _ => trivial⟩

theorem popCells
    (hI : Stable P I)
    (count : Nat) :
    Keeps I (fun cells => ∀ v ∈ cells, P v) (Machine.popCells count) := by
  induction count with
  | zero =>
      apply keeps_pure
      intro v hv
      cases hv
  | succ count ih =>
      apply hI.pop.bind
      intro v hv
      apply ih.bind
      intro rest hrest
      apply keeps_pure
      intro w hw
      rcases List.mem_cons.1 hw with rfl | hw
      · exact hv
      · exact hrest w hw

theorem pushCells
    (hI : Stable P I)
    {cells : List Value}
    (hcells : ∀ v ∈ cells, P v) :
    Keeps I (fun _ => True) (Machine.pushCells cells) := by
  induction cells with
  | nil =>
      exact keeps_pure trivial
  | cons v rest ih =>
      apply (hI.push (hcells v List.mem_cons_self)).bind
      intro _ _
      apply ih
      intro w hw
      exact hcells w (List.mem_cons_of_mem v hw)

theorem folded
    (folding : Bool)
    (result : Except Fault Literal) :
    Keeps I (fun _ => True) (Machine.folded folding result) := by
  unfold Machine.folded
  split
  · cases result with
    | ok l =>
        exact keeps_pure trivial
    | error e =>
        exact keeps_throw e
  · exact keeps_pure trivial

theorem arithmetic
    (hI : Stable P I)
    (folding : Bool)
    (op : Opcode)
    (signature : Signature) :
    Keeps I (fun _ => True) (Machine.arithmetic folding op signature) := by
  cases signature with
  | unary operand result =>
      apply (hI.popWide operand.slots).bind
      intro v _
      apply (folded folding _).bind
      intro l _
      exact hI.pushSized (hI.plain ⟨.ofLiteral _ l, rfl⟩)
  | binary left right result =>
      apply (hI.popWide right.slots).bind
      intro r _
      apply (hI.popWide left.slots).bind
      intro v _
      apply (folded folding _).bind
      intro l _
      exact hI.pushSized (hI.plain ⟨.ofLiteral _ l, rfl⟩)

end Stable
end Frame
end SlotFlow
