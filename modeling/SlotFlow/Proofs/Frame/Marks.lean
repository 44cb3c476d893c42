import SlotFlow.Proofs.Frame.Success
import SlotFlow.Proofs.Machine.Judgement

/-!
# Operations that set the marks

An operation that only pops leaves the mark of the stack alone, and one that only pushes
ends at its deepest. What pops first and then pushes therefore ends at the deepest of what
it has pushed: whatever the marks were before, they are raised to what the frame holds in
the end, and a limit that allows this allows all of the operation.

Main definitions:

* `Marks`: the marks of a frame and the limit of its stack, to be put in place of others;
* `Tops`: operations that raise all marks to what is there in the end;
* `Lowers`, `Raises`: those whose stack gets no deeper, and no less deep.

Main statements:

* `Lowers.bind_tops`, `Raises.bind`: popping before pushing, and pushing in a row;
* `pop_lowers`, `setLocal_lowers`, …: operations that do not push;
* `push_raises`, `pushSized_raises`, …: operations that push;
* `arithmetic_tops`: operands are popped before the result is pushed;
* `getLocal_marks`, `resetTo_marks`: what reads, and what states a frame.
-/

namespace SlotFlow

/-- The marks of a frame, and the limit that its stack is held to. -/
structure Marks where
  limit : Option Nat
  depth : Nat
  count : Nat

namespace Marks

variable {k : Marks} {f g : Frame}

/-- The stack of the frame is within the limit. -/
def Allows
    (k : Marks)
    (f : Frame) :
    Prop :=
  ∀ limit, k.limit = some limit → f.stack.length ≤ limit

/-- The marks and the limit are no less than what the frame holds. -/
structure Covers
    (k : Marks)
    (f : Frame) : Prop where
  depth : f.stack.length ≤ k.depth
  count : f.locals.length ≤ k.count
  allows : k.Allows f

/-- The marks, raised to what the frame holds. -/
def raised
    (k : Marks)
    (f : Frame) :
    Marks :=
  { k with depth := max k.depth f.stack.length, count := max k.count f.locals.length }

/-- The marks once a number of locals was seen. -/
def reading
    (k : Marks)
    (slots : Nat) :
    Marks :=
  { k with count := max k.count slots }

@[simp] theorem reading_zero
    (k : Marks) :
    k.reading 0 = k := by
  rw [reading, Nat.max_zero]

theorem Allows.of_le
    (h : k.Allows g)
    (hle : f.stack.length ≤ g.stack.length) :
    k.Allows f :=
  fun limit hlimit => Nat.le_trans hle (h limit hlimit)

theorem Allows.covers_raised
    (h : k.Allows f) :
    (k.raised f).Covers f :=
  ⟨Nat.le_max_right _ _, Nat.le_max_right _ _, h⟩

/-- Marks that cover what is there need not be raised. -/
theorem raised_eq
    (hdepth : f.stack.length ≤ k.depth)
    (hcount : f.locals.length ≤ k.count) :
    k.raised f = k := by
  rw [raised, Nat.max_eq_left hdepth, Nat.max_eq_left hcount]

/-- A frame on the way does not matter that holds no more than the marks or the last frame. -/
theorem raised_raised
    (hdepth : f.stack.length ≤ max k.depth g.stack.length)
    (hcount : f.locals.length ≤ max k.count g.locals.length) :
    (k.raised f).raised g = k.raised g := by
  have hdeepest : max (max k.depth f.stack.length) g.stack.length =
      max k.depth g.stack.length := by omega
  have hmost : max (max k.count f.locals.length) g.locals.length =
      max k.count g.locals.length := by omega
  simp only [raised, hdeepest, hmost]

end Marks

section Operations

variable {σ α β : Type}

/--
Where the operation succeeds, it does so under any marks that cover what was there, and
raises them to what is there in the end, unless a limit forbids that. No locals are lost.
-/
structure Tops
    (view : σ → Frame)
    (remarked : Marks → σ → σ)
    (act : ExceptT Fault (StateM σ) α) : Prop where
  count :
    ∀ {s a t}, act s = (.ok a, t) → (view s).locals.length ≤ (view t).locals.length
  marks :
    ∀ {s a t}, act s = (.ok a, t) → ∀ k : Marks, k.Covers (view s) → k.Allows (view t) →
      act (remarked k s) = (.ok a, remarked (k.raised (view t)) t)

/-- The stack is no deeper in the end. -/
structure Lowers
    (view : σ → Frame)
    (remarked : Marks → σ → σ)
    (act : ExceptT Fault (StateM σ) α) : Prop extends Tops view remarked act where
  depth :
    ∀ {s a t}, act s = (.ok a, t) → (view t).stack.length ≤ (view s).stack.length

/-- The stack is no less deep in the end. -/
structure Raises
    (view : σ → Frame)
    (remarked : Marks → σ → σ)
    (act : ExceptT Fault (StateM σ) α) : Prop extends Tops view remarked act where
  depth :
    ∀ {s a t}, act s = (.ok a, t) → (view s).stack.length ≤ (view t).stack.length

variable {view : σ → Frame} {remarked : Marks → σ → σ}
variable {act : ExceptT Fault (StateM σ) α} {next : α → ExceptT Fault (StateM σ) β}

/-- Where nothing is popped after something was pushed, the last frame raises the marks. -/
theorem Tops.bind
    (h : Tops view remarked act)
    (hnext : ∀ a, Tops view remarked (next a))
    (hturn :
      ∀ {s a t b u}, act s = (.ok a, t) → next a t = (.ok b, u) →
        (view t).stack.length ≤ max (view s).stack.length (view u).stack.length) :
    Tops view remarked (act >>= next) where
  count hact := by
    obtain ⟨a, t, hfirst, hrest⟩ := exists_of_bind_eq_ok hact
    exact Nat.le_trans (h.count hfirst) ((hnext a).count hrest)
  marks {s _ _} hact k hcovers hallows := by
    obtain ⟨a, t, hfirst, hrest⟩ := exists_of_bind_eq_ok hact
    have hbetween := hturn hfirst hrest
    have hcovered := hcovers.depth
    have hcount := (hnext a).count hrest
    have hroom : k.Allows (view t) := by
      by_cases hle : (view t).stack.length ≤ (view s).stack.length
      · exact hcovers.allows.of_le hle
      · exact hallows.of_le (by omega)
    rw [run_bind, h.marks hfirst k hcovers hroom]
    simp only
    rw [(hnext a).marks hrest _ hroom.covers_raised hallows,
      Marks.raised_raised (by omega) (by omega)]

/-- What is popped first is not as deep as what was there. -/
theorem Lowers.bind_tops
    (h : Lowers view remarked act)
    (hnext : ∀ a, Tops view remarked (next a)) :
    Tops view remarked (act >>= next) :=
  h.toTops.bind hnext fun hfirst _ => Nat.le_trans (h.depth hfirst) (Nat.le_max_left _ _)

theorem Lowers.bind
    (h : Lowers view remarked act)
    (hnext : ∀ a, Lowers view remarked (next a)) :
    Lowers view remarked (act >>= next) where
  toTops := h.bind_tops fun a => (hnext a).toTops
  depth hact := by
    obtain ⟨a, t, hfirst, hrest⟩ := exists_of_bind_eq_ok hact
    exact Nat.le_trans ((hnext a).depth hrest) (h.depth hfirst)

/-- What is pushed first is not as deep as what is pushed next. -/
theorem Raises.bind
    (h : Raises view remarked act)
    (hnext : ∀ a, Raises view remarked (next a)) :
    Raises view remarked (act >>= next) where
  toTops := h.toTops.bind (fun a => (hnext a).toTops) fun _ hrest =>
    Nat.le_trans ((hnext _).depth hrest) (Nat.le_max_right _ _)
  depth hact := by
    obtain ⟨a, t, hfirst, hrest⟩ := exists_of_bind_eq_ok hact
    exact Nat.le_trans (h.depth hfirst) ((hnext a).depth hrest)

/-- What pushes nothing, loses no locals and does the same under all marks. -/
theorem lowers_of_commutes
    (hdepth : ∀ s, (view (act s).2).stack.length ≤ (view s).stack.length)
    (hcount : ∀ s, (view (act s).2).locals.length = (view s).locals.length)
    (hcommutes : ∀ k, Commutes (remarked k) act) :
    Lowers view remarked act where
  count {s a t} hact := by
    have hlocals := hcount s
    rw [hact] at hlocals
    exact Nat.le_of_eq hlocals.symm
  marks {s a t} hact k hcovers _ := by
    have hstack := hdepth s
    have hlocals := hcount s
    rw [hact] at hstack hlocals
    rw [hcommutes k s, hact,
      k.raised_eq (Nat.le_trans hstack hcovers.depth) (hlocals ▸ hcovers.count)]
  depth {s a t} hact := by
    have hstack := hdepth s
    rwa [hact] at hstack

theorem lowers_pure
    (a : α) :
    Lowers view remarked (pure a) :=
  lowers_of_commutes (fun _ => Nat.le_refl _) (fun _ => rfl) fun _ => commutes_pure a

theorem lowers_throw
    (e : Fault) :
    Lowers view remarked (throw e : ExceptT Fault (StateM σ) α) :=
  lowers_of_commutes (fun _ => Nat.le_refl _) (fun _ => rfl) fun _ => commutes_throw e

theorem raises_pure
    (a : α) :
    Raises view remarked (pure a) where
  toTops := (lowers_pure a).toTops
  depth hact := by
    cases hact
    exact Nat.le_refl _

end Operations

namespace Frame

variable {f g : Frame} {k : Marks}

/-- The frame with other marks and another limit. -/
def remarked
    (k : Marks)
    (f : Frame) :
    Frame :=
  { f with limit := k.limit, maxStack := k.depth, maxLocals := k.count }

/-- The marks of a frame, and its limit. -/
def marks
    (f : Frame) :
    Marks :=
  ⟨f.limit, f.maxStack, f.maxLocals⟩

@[simp] theorem remarked_stack
    (k : Marks)
    (f : Frame) :
    (f.remarked k).stack = f.stack := by
  rfl

@[simp] theorem remarked_reachable
    (k : Marks)
    (f : Frame) :
    (f.remarked k).reachable = f.reachable := by
  rfl

theorem exceeded_remarked
    {depth : Nat} :
    (f.remarked k).exceeded? depth = none ↔ ∀ limit, k.limit = some limit → depth ≤ limit :=
  exceeded_eq_none

/-- What a reachable frame is asked to do, if that pushes nothing and sets no mark. -/
theorem lowers_whenReachable
    {α : Type}
    {act : Frame → Except Fault α × Frame}
    (hdepth : ∀ f, (act f).2.stack.length ≤ f.stack.length)
    (hlocals : ∀ f, (act f).2.locals = f.locals)
    (hcommutes : ∀ k f, act (f.remarked k) = ((act f).1, (act f).2.remarked k)) :
    Lowers view remarked (whenReachable act) := by
  apply lowers_of_commutes
  · intro f
    unfold whenReachable
    split
    · exact hdepth f
    · exact Nat.le_refl _
  · intro f
    unfold whenReachable
    split
    · exact congrArg List.length (hlocals f)
    · rfl
  · intro k f
    unfold whenReachable
    rw [remarked_reachable]
    split
    · exact hcommutes k f
    · rfl

theorem pop_lowers :
    Lowers view remarked pop := by
  apply lowers_whenReachable
  · intro f
    split
    · exact Nat.le_refl _
    · rename_i hstack
      simp [hstack]
  · intro f
    split <;> rfl
  · intro k f
    rw [remarked_stack]
    split <;> rfl

theorem popWide_lowers
    (count : Nat) :
    Lowers view remarked (popWide count) := by
  apply lowers_whenReachable
  · intro f
    split
    · rename_i hdrop
      have hlength := congrArg List.length hdrop
      simp only [List.length_drop, List.length_cons] at hlength ⊢
      omega
    · exact Nat.le_refl _
  · intro f
    split <;> rfl
  · intro k f
    rw [remarked_stack]
    split <;> rfl

theorem popMany_lowers
    (count : Nat) :
    Lowers view remarked (popMany count) := by
  apply lowers_whenReachable
  · intro f
    split
    · exact Nat.le_refl _
    · simp
  · intro f
    split <;> rfl
  · intro k f
    rw [remarked_stack]
    split <;> rfl

theorem orInvalid_lowers
    {α : Type}
    (descriptor : String)
    (read : Option α) :
    Lowers view remarked (orInvalid descriptor read) := by
  cases read with
  | none =>
      exact lowers_throw _
  | some a =>
      exact lowers_pure a

theorem popDescriptor_lowers
    (descriptor : String) :
    Lowers view remarked (popDescriptor descriptor) :=
  (orInvalid_lowers descriptor _).bind popMany_lowers

theorem popCells_lowers
    (count : Nat) :
    Lowers view remarked (Machine.popCells count) := by
  induction count with
  | zero =>
      exact lowers_pure []
  | succ count ih =>
      apply pop_lowers.bind
      intro v
      apply ih.bind
      intro rest
      exact lowers_pure (v :: rest)

theorem folded_lowers
    (folding : Bool)
    (result : Except Fault Literal) :
    Lowers view remarked (Machine.folded folding result) := by
  unfold Machine.folded
  split
  · cases result with
    | ok l =>
        exact lowers_pure l
    | error e =>
        exact lowers_throw e
  · exact lowers_pure Literal.unknown

/-- A write sets the mark of the locals to their number, and there are no fewer than before. -/
theorem setLocal_lowers
    (index : Nat)
    (v : Value) :
    Lowers view remarked (setLocal index v) where
  count hset := by
    obtain rfl := setLocal_eq_ok hset
    change _ ≤ (Locals.write _ index v).length
    rw [Locals.length_write]
    exact Nat.le_max_left _ _
  marks {f _ _} hset k hcovers _ := by
    have hreachable := reachable_of_whenReachable_eq_ok hset
    obtain rfl := setLocal_eq_ok hset
    have hdepth : max k.depth f.stack.length = k.depth := Nat.max_eq_left hcovers.depth
    rw [setLocal, whenReachable, if_pos (by exact hreachable)]
    simp only [Marks.raised, writeLocal, hdepth]
    rfl
  depth hset := by
    obtain rfl := setLocal_eq_ok hset
    exact Nat.le_refl _

/-- A push sets the mark of the stack to its depth, if it was not deeper before. -/
theorem push_raises
    (v : Value) :
    Raises view remarked (push v) where
  count hpush := by
    obtain ⟨_, _, rfl⟩ := push_eq_ok hpush
    exact Nat.le_refl _
  marks {f _ _} hpush k hcovers hallows := by
    obtain ⟨hreachable, _, rfl⟩ := push_eq_ok hpush
    have hcount : max k.count f.locals.length = k.count := Nat.max_eq_left hcovers.count
    rw [push_run (by exact hreachable) (exceeded_remarked.2 hallows)]
    simp only [Marks.raised, pushed, hcount]
    rfl
  depth hpush := by
    obtain ⟨_, _, rfl⟩ := push_eq_ok hpush
    exact Nat.le_succ _

theorem pushSized_raises
    (v : Value) :
    Raises view remarked (pushSized v) := by
  apply (push_raises v).bind
  intro _
  split
  · exact push_raises .top
  · exact raises_pure ()

theorem pushCells_raises
    (cells : List Value) :
    Raises view remarked (Machine.pushCells cells) := by
  induction cells with
  | nil =>
      exact raises_pure ()
  | cons v rest ih =>
      apply (push_raises v).bind
      intro _
      exact ih

theorem pushDescriptor_tops
    (descriptor : String)
    (field : Option String) :
    Tops view remarked (pushDescriptor descriptor field) := by
  apply (orInvalid_lowers descriptor _).bind_tops
  intro type
  cases type with
  | none =>
      exact (lowers_pure ()).toTops
  | some type =>
      exact (pushSized_raises _).toTops

/-- Operands are popped before the result is pushed. -/
theorem arithmetic_tops
    (folding : Bool)
    (op : Opcode)
    (signature : Signature) :
    Tops view remarked (Machine.arithmetic folding op signature) := by
  cases signature with
  | unary operand result =>
      apply (popWide_lowers operand.slots).bind_tops
      intro v
      apply (folded_lowers folding _).bind_tops
      intro l
      exact (pushSized_raises _).toTops
  | binary left right result =>
      apply (popWide_lowers right.slots).bind_tops
      intro r
      apply (popWide_lowers left.slots).bind_tops
      intro v
      apply (folded_lowers folding _).bind_tops
      intro l
      exact (pushSized_raises _).toTops

/-- A read sets the mark of the locals to the slot that is read. -/
theorem getLocal_run
    (hreachable : f.reachable = true)
    (index : Nat) :
    getLocal index f =
      (.ok (Locals.read f.locals index), f.remarked (f.marks.reading (index + 1))) := by
  rw [getLocal, whenReachable, if_pos hreachable]
  rfl

/-- What is done with a local is done after the mark was set to it. -/
theorem getLocal_marks
    {α : Type}
    {next : Value → FrameM α}
    {a : α}
    {index : Nat}
    (hnext : ∀ v, Tops view remarked (next v))
    (hact : (getLocal index >>= next) f = (.ok a, g))
    (hcovers : k.Covers f)
    (hallows : k.Allows g) :
    (getLocal index >>= next) (f.remarked k) =
      (.ok a, g.remarked ((k.reading (index + 1)).raised g)) := by
  obtain ⟨v, mid, hget, hrest⟩ := exists_of_bind_eq_ok hact
  have hreachable := reachable_of_whenReachable_eq_ok hget
  rw [getLocal_run hreachable] at hget
  cases hget
  have hseen : (k.reading (index + 1)).Covers (f.remarked (f.marks.reading (index + 1))) :=
    ⟨hcovers.depth, Nat.le_trans hcovers.count (Nat.le_max_left _ _), hcovers.allows⟩
  rw [run_bind, getLocal_run (by exact hreachable)]
  exact (hnext _).marks hrest (k.reading (index + 1)) hseen hallows

/-- A local that is written after it was read is counted by the write. -/
theorem updateLocal_tops
    (index : Nat)
    (change : Value → Value) :
    Tops view remarked (do
      let v ← getLocal index
      setLocal index (change v)) where
  count hact := by
    obtain ⟨v, mid, hget, hset⟩ := exists_of_bind_eq_ok hact
    rw [← (getLocal_eq_ok hget).2.locals]
    exact (setLocal_lowers index _).count hset
  marks {f _ g} hact k hcovers hallows := by
    rw [getLocal_marks (fun v => (setLocal_lowers index (change v)).toTops) hact hcovers hallows]
    obtain ⟨v, mid, _, hset⟩ := exists_of_bind_eq_ok hact
    have hwritten : index + 1 ≤ g.locals.length := by
      obtain rfl := setLocal_eq_ok hset
      change _ ≤ (Locals.write _ index _).length
      rw [Locals.length_write]
      split <;> omega
    have hcount : max (max k.count (index + 1)) g.locals.length =
        max k.count g.locals.length := by omega
    simp only [Marks.raised, Marks.reading, hcount]

/-- A frame record sets the marks to what it states. -/
theorem resetTo_marks
    {locals stack : List VerificationType}
    (hreset : resetTo locals stack f = (.ok (), g))
    (hallows : k.Allows g) :
    resetTo locals stack (f.remarked k) = (.ok (), g.remarked (k.raised g)) := by
  unfold resetTo at hreset ⊢
  simp only at hreset ⊢
  split at hreset
  · cases hreset
  · cases hreset
    have hroom : (f.remarked k).exceeded? (expand stack).length = none := by
      rw [exceeded_remarked]
      intro limit hlimit
      have hle := hallows limit hlimit
      rwa [List.length_reverse] at hle
    simp only [hroom, Marks.raised, List.length_reverse]
    rfl

end Frame
end SlotFlow
