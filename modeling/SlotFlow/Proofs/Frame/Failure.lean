import SlotFlow.Proofs.Frame.Sequence
import SlotFlow.Proofs.Frame.Success

/-!
# Operations that fail

An operation looks at what it needs before it changes anything, so one that fails leaves the
frame as it was. The push of a value that takes two slots is two pushes, each of which looks
for room for itself only. If there is room for one slot and not for two, it leaves the value
on the stack without its second half.

Main definitions:

* `Operation.fault?`: the fault that an operation fails with;
* `Operation.Splits`: the limit falls between the two slots that an operation pushes;
* `Untouched`: operations that leave the frame as it was if they fail.

Main statements:

* `untouched_push`, `untouched_popWide`, …: the operations that take a single step;
* `pushSized_eq_error`, `pushSized_split`: the push of a value that takes two slots;
* `apply_of_fault`: all operations;
* `apply_split`: half of a value is left on the stack.
-/

namespace SlotFlow
namespace Frame

/-- The fault that a result is, if it is one. -/
def faultOf?
    {α : Type} :
    Except Fault α → Option Fault
  | .error e => some e
  | .ok _ => none

/-- The fault that an operation fails with. -/
def Operation.fault?
    (f : Frame) :
    Operation → Option Fault
  | .getLocal index => faultOf? (Frame.getLocal index f).1
  | .setLocal index v => faultOf? (Frame.setLocal index v f).1
  | .push v => faultOf? (Frame.push v f).1
  | .pushSized v => faultOf? (Frame.pushSized v f).1
  | .pop => faultOf? (Frame.pop f).1
  | .popWide count => faultOf? (Frame.popWide count f).1
  | .popMany count => faultOf? (Frame.popMany count f).1
  | .popDescriptor descriptor => faultOf? (Frame.popDescriptor descriptor f).1
  | .pushDescriptor descriptor field => faultOf? (Frame.pushDescriptor descriptor field f).1
  | .resetTo locals stack => faultOf? (Frame.resetTo locals stack f).1
  | .leave => none
  | .replaceAll _ _ => none

/-- The value that an operation pushes, with its second half if it has one. -/
def Operation.sized? : Operation → Option Value
  | .pushSized v => some v
  | .pushDescriptor descriptor field =>
      (pushedType? descriptor).join.map fun type => loaded type field
  | _ => none

/-- The limit falls between the two slots of the value that an operation pushes. -/
structure Operation.Splits
    (op : Operation)
    (f : Frame)
    (v : Value) : Prop where
  sized : op.sized? = some v
  wide : v.isWide = true
  reachable : f.reachable = true
  limit : f.limit = some (f.stack.length + 1)

section Untouched

variable {α β : Type} {act : FrameM α} {f g : Frame} {e : Fault}

/-- If the operation fails it leaves the frame as it was. -/
def Untouched
    (act : FrameM α) :
    Prop :=
  ∀ f e g, act f = (.error e, g) → g = f

theorem untouched_whenReachable
    {act : Frame → Except Fault α × Frame}
    (h : ∀ f e g, act f = (.error e, g) → g = f) :
    Untouched (whenReachable act) := by
  intro f e g hact
  unfold whenReachable at hact
  split at hact
  · exact h f e g hact
  · cases hact
    rfl

/-- What comes after reading a descriptor decides. -/
theorem Untouched.orInvalid_bind
    {descriptor : String}
    {read : Option α}
    {next : α → FrameM β}
    (h : ∀ a, read = some a → Untouched (next a)) :
    Untouched (orInvalid descriptor read >>= next) := by
  intro f e g hact
  rw [run_bind] at hact
  cases read with
  | none =>
      cases hact
      rfl
  | some a =>
      exact h a rfl f e g hact

theorem untouched_getLocal
    (index : Nat) :
    Untouched (getLocal index) := by
  apply untouched_whenReachable
  intro f e g hact
  cases hact

theorem untouched_setLocal
    (index : Nat)
    (v : Value) :
    Untouched (setLocal index v) := by
  apply untouched_whenReachable
  intro f e g hact
  cases hact

theorem untouched_push
    (v : Value) :
    Untouched (push v) := by
  apply untouched_whenReachable
  intro f e g hact
  split at hact <;> cases hact
  rfl

theorem untouched_pop :
    Untouched pop := by
  apply untouched_whenReachable
  intro f e g hact
  split at hact <;> cases hact
  rfl

theorem untouched_popWide
    (count : Nat) :
    Untouched (popWide count) := by
  apply untouched_whenReachable
  intro f e g hact
  split at hact <;> cases hact
  rfl

theorem untouched_popMany
    (count : Nat) :
    Untouched (popMany count) := by
  apply untouched_whenReachable
  intro f e g hact
  split at hact <;> cases hact
  rfl

theorem untouched_popDescriptor
    (descriptor : String) :
    Untouched (popDescriptor descriptor) :=
  .orInvalid_bind fun count _ => untouched_popMany count

theorem untouched_resetTo
    (locals stack : List VerificationType) :
    Untouched (resetTo locals stack) := by
  intro f e g hact
  unfold resetTo at hact
  simp only at hact
  split at hact <;> cases hact
  rfl

end Untouched

section Split

variable {f g : Frame} {v : Value} {e : Fault}

/-- A push that fails on a reachable frame has found its stack full. -/
theorem push_eq_error
    (hreachable : f.reachable = true)
    (h : push v f = (.error e, g)) :
    ∃ limit, f.exceeded? (f.stack.length + 1) = some limit := by
  rw [push, whenReachable, if_pos hreachable] at h
  split at h
  · rename_i limit hfull
    exact ⟨limit, hfull⟩
  · cases h

/--
A push of a value that fails leaves the frame as it was, or the value takes two slots and
there is room for one.
-/
theorem pushSized_eq_error
    (h : pushSized v f = (.error e, g)) :
    g = f ∨
      (v.isWide = true ∧ f.reachable = true ∧ f.limit = some (f.stack.length + 1)) := by
  rw [pushSized, run_bind] at h
  rcases hfirst : push v f with ⟨fault | _, mid⟩
  · rw [hfirst] at h
    cases h
    exact .inl (untouched_push v f e g hfirst)
  · obtain ⟨hreachable, hroom, rfl⟩ := push_eq_ok hfirst
    rw [hfirst] at h
    simp only at h
    split at h
    · rename_i hwide
      obtain ⟨limit, hfull⟩ := push_eq_error (f := f.pushed v) hreachable h
      -- there was room for the first slot, so the limit is the depth with it
      obtain ⟨hlimit, hdepth⟩ := exceeded_eq_some.1 hfull
      have hbelow := exceeded_eq_none.1 hroom limit hlimit
      simp only [pushed, List.length_cons] at hdepth
      obtain rfl : limit = f.stack.length + 1 := by omega
      exact .inr ⟨hwide, hreachable, hlimit⟩
    · cases h

/-- If the limit falls between its two slots, a value is pushed by half. -/
theorem pushSized_split
    (hwide : v.isWide = true)
    (hreachable : f.reachable = true)
    (hlimit : f.limit = some (f.stack.length + 1)) :
    pushSized v f = (.error (.stackOverflow (f.stack.length + 1)), f.pushed v) := by
  have hroom : f.exceeded? (f.stack.length + 1) = none := by
    rw [exceeded_eq_none]
    intro limit h
    rw [hlimit] at h
    cases h
    exact Nat.le_refl _
  have hfull : (f.pushed v).exceeded? ((f.pushed v).stack.length + 1) =
      some (f.stack.length + 1) :=
    exceeded_eq_some.2 ⟨hlimit, Nat.lt_succ_self _⟩
  have hlive : (f.pushed v).reachable = true := hreachable
  rw [pushSized, run_bind, push_run hreachable hroom]
  simp only [hwide, if_true]
  rw [push, whenReachable, if_pos hlive, hfull]

end Split

variable {f : Frame} {op : Operation} {v : Value} {e : Fault}

theorem eq_error_of_faultOf
    {α : Type}
    {result : Except Fault α × Frame}
    (h : faultOf? result.1 = some e) :
    result = (.error e, result.2) := by
  rcases result with ⟨fault | a, g⟩ <;> cases h
  rfl

theorem Untouched.of_fault
    {α : Type}
    {act : FrameM α}
    (hact : Untouched act)
    (h : faultOf? (act f).1 = some e) :
    (act f).2 = f :=
  hact f e _ (eq_error_of_faultOf h)

/-- An operation that pushes a whole value does what pushing that value does. -/
theorem apply_of_sized
    (h : op.sized? = some v)
    (f : Frame) :
    op.fault? f = faultOf? (pushSized v f).1 ∧ f.apply op = (pushSized v f).2 := by
  cases op with
  | pushSized w =>
      cases h
      exact ⟨rfl, rfl⟩
  | pushDescriptor descriptor field =>
      obtain ⟨type, htype, rfl⟩ := Option.map_eq_some_iff.1 h
      have hpush : pushDescriptor descriptor field f = pushSized (loaded type field) f := by
        rw [pushDescriptor, run_bind, Option.join_eq_some_iff.1 htype]
        rfl
      rw [Operation.fault?, apply, hpush]
      exact ⟨rfl, rfl⟩
  | _ =>
      cases h

/-- A descriptor that names no value to push is refused or pushes nothing. -/
theorem untouched_pushDescriptor
    {descriptor : String}
    {field : Option String}
    (h : (Operation.pushDescriptor descriptor field).sized? = none) :
    Untouched (pushDescriptor descriptor field) := by
  apply Untouched.orInvalid_bind
  intro type htype f e g hact
  cases type with
  | none =>
      cases hact
  | some type =>
      rw [Operation.sized?, htype] at h
      cases h

/-- An operation that pushes no whole value leaves the frame as it was if it fails. -/
theorem apply_of_unsized
    (hsized : op.sized? = none)
    (h : op.fault? f = some e) :
    f.apply op = f := by
  cases op with
  | getLocal index =>
      exact (untouched_getLocal index).of_fault h
  | setLocal index v =>
      exact (untouched_setLocal index v).of_fault h
  | push v =>
      exact (untouched_push v).of_fault h
  | pop =>
      exact untouched_pop.of_fault h
  | popWide count =>
      exact (untouched_popWide count).of_fault h
  | popMany count =>
      exact (untouched_popMany count).of_fault h
  | popDescriptor descriptor =>
      exact (untouched_popDescriptor descriptor).of_fault h
  | pushDescriptor descriptor field =>
      exact (untouched_pushDescriptor hsized).of_fault h
  | resetTo locals stack =>
      exact (untouched_resetTo locals stack).of_fault h
  | pushSized v =>
      cases hsized
  | leave | replaceAll =>
      cases h

/-- An operation that fails leaves the frame as it was, unless the limit splits its value. -/
theorem untouched_or_splits
    (h : op.fault? f = some e) :
    f.apply op = f ∨ ∃ v, op.Splits f v := by
  cases hsized : op.sized? with
  | none =>
      exact .inl (apply_of_unsized hsized h)
  | some v =>
      obtain ⟨hfault, happly⟩ := apply_of_sized hsized f
      rw [hfault] at h
      rcases pushSized_eq_error (eq_error_of_faultOf h) with hsame | ⟨hwide, hreachable, hlimit⟩
      · exact .inl (happly.trans hsame)
      · exact .inr ⟨v, hsized, hwide, hreachable, hlimit⟩

/-- An operation whose value the limit splits fails, and leaves half of the value. -/
theorem Operation.Splits.leaves_half
    (h : op.Splits f v) :
    op.fault? f = some (.stackOverflow (f.stack.length + 1)) ∧ f.apply op = f.pushed v := by
  obtain ⟨hfault, happly⟩ := apply_of_sized h.sized f
  rw [hfault, happly, pushSized_split h.wide h.reachable h.limit]
  exact ⟨rfl, rfl⟩

/--
An operation on a frame that fails leaves the whole frame as it was, except where it pushes
a value that takes two slots on a reachable frame with room for one. It fails there too, and
the first half of the value stays on the stack and counts as depth that was reached.
-/
theorem apply_of_fault
    (f : Frame)
    (op : Operation) :
    (∀ e, op.fault? f = some e → (∀ v, ¬ op.Splits f v) → f.apply op = f) ∧
      ∀ v, op.Splits f v →
        op.fault? f = some (.stackOverflow (f.stack.length + 1)) ∧ f.apply op = f.pushed v ∧
          f.apply op ≠ f := by
  constructor
  · intro e he hwhole
    rcases untouched_or_splits he with hsame | ⟨v, hsplits⟩
    · exact hsame
    · exact absurd hsplits (hwhole v)
  · intro v hsplits
    obtain ⟨hfault, hhalf⟩ := hsplits.leaves_half
    refine ⟨hfault, hhalf, ?_⟩
    intro hsame
    have hlength := congrArg (fun g => g.stack.length) (hhalf.symm.trans hsame)
    simp [pushed] at hlength

/-- With room for one slot, the push of a long fails and leaves the long behind. -/
theorem apply_split :
    let f := empty (some 1)
    let op : Operation := .pushSized (.long 1)
    op.fault? f = some (.stackOverflow 1) ∧ (f.apply op).stack = [.long 1] ∧
      ¬ ∀ (g : Frame) (other : Operation) (e : Fault),
        other.fault? g = some e → g.apply other = g := by
  intro f op
  have hfault : op.fault? f = some (.stackOverflow 1) := rfl
  have hstack : (f.apply op).stack = [.long 1] := rfl
  refine ⟨hfault, hstack, ?_⟩
  intro h
  rw [h f op _ hfault] at hstack
  cases hstack

end Frame
end SlotFlow
