import SlotFlow.Proofs.Machine.Instruction

/-!
# Calls and the value of their argument

A call pops its arguments without looking at them. A call with one argument of one slot
does the same whatever value is on top of the stack, whatever labels are pending and
whatever instruction came before it.

Main definitions:

* `Machine.withTop`: another value on top of the stack, between other instructions;
* `Machine.answer`: what is left of a call once its arguments are popped.

Main statements:

* `perform_call`: a call pops its arguments first;
* `answer_awaiting`: the rest of a call does not look at the pending labels;
* `execute_call_argument`: a call does the same whatever its argument;
* `after_pop_load`: taking the top off the stack and loading a constant of one slot.
-/

namespace SlotFlow

namespace Machine

variable {m : Machine}

/-- The machine while other labels are pending. -/
def awaiting
    (labels : List Label)
    (m : Machine) :
    Machine :=
  { m with pending := labels }

theorem onFrame_awaiting
    {α : Type}
    (labels : List Label)
    (act : FrameM α) :
    Commutes (awaiting labels) (onFrame act) :=
  fun _ => rfl

theorem completeConstruction_awaiting
    (labels : List Label)
    (v : Value)
    (callOwner : String) :
    Commutes (awaiting labels) (completeConstruction v callOwner) := by
  intro m
  have htype : (m.awaiting labels).constructedType? v.category callOwner =
      m.constructedType? v.category callOwner :=
    rfl
  unfold completeConstruction
  rw [htype]
  split <;> rfl

theorem popReceiver_awaiting
    (labels : List Label)
    (receiver : Receiver) :
    Commutes (awaiting labels) (popReceiver receiver) := by
  have hpop := onFrame_awaiting labels Frame.pop
  cases receiver with
  | none =>
      exact commutes_pure ()
  | object =>
      exact hpop.bind fun _ => commutes_pure ()
  | constructed owner =>
      exact hpop.bind fun v => completeConstruction_awaiting labels v owner

/-- What is left of a call once its arguments are popped. -/
def answer
    (receiver : Receiver)
    (descriptor : String) :
    MachineM Unit := do
  popReceiver receiver
  onFrame (Frame.pushDescriptor descriptor none)

theorem answer_awaiting
    (labels : List Label)
    (receiver : Receiver)
    (descriptor : String) :
    Commutes (awaiting labels) (answer receiver descriptor) :=
  (popReceiver_awaiting labels receiver).bind fun _ => onFrame_awaiting labels _

/-- A call takes its arguments off the stack first. -/
theorem perform_call
    {receiver : Receiver}
    {descriptor : String}
    {count : Nat}
    (hpopped : poppedSlots? descriptor = some count)
    (hreachable : m.frame.reachable = true)
    (henough : count ≤ m.frame.stack.length) :
    perform (.call receiver descriptor) m =
      answer receiver descriptor
        { m with frame := { m.frame with stack := m.frame.stack.drop count } } := by
  have hpop : Frame.popDescriptor descriptor m.frame =
      (.ok (), { m.frame with stack := m.frame.stack.drop count }) := by
    rw [Frame.popDescriptor, run_bind, hpopped]
    exact Frame.popMany_run hreachable henough
  rw [perform, run_bind, onFrame, hpop]
  rfl

/-- The machine with another value on top of its stack, between other instructions. -/
def withTop
    (m : Machine)
    (v : Value)
    (labels : List Label)
    (previous : Option Opcode) :
    Machine :=
  { m with
    frame := { m.frame with stack := v :: m.frame.stack.tail, current := previous }
    pending := labels }

/-- An instruction uses up whatever labels are pending. -/
theorem executeReachable_of_awaiting
    {a b : Machine}
    {op : Opcode}
    {effect : Effect}
    (labels : List Label)
    (h :
      perform effect (b.executing op) =
        ((perform effect (a.executing op)).1,
          (perform effect (a.executing op)).2.awaiting labels)) :
    executeReachable op effect b = executeReachable op effect a := by
  unfold executeReachable
  rw [h]
  rcases perform effect (a.executing op) with ⟨_ | _, after⟩ <;> rfl

/-- An instruction that succeeds has the operands of its opcode. -/
theorem executable_of_succeeds
    {r : Record}
    {op : Opcode}
    (hop : r.opcode? = some op)
    (hoperands : r.OperandsValid)
    (hsucceeds : (execute r m).1 = .ok ()) :
    r.Executable op := by
  rw [execute_of_opcode hop, executeInstruction] at hsucceeds
  cases hplain : op.isSubroutine with
  | true =>
      rw [hplain] at hsucceeds
      cases hsucceeds
  | false =>
      cases hfits : r.misfit? with
      | some misfit =>
          rw [hplain, hfits] at hsucceeds
          cases hsucceeds
      | none =>
          exact ⟨hop, hplain, hfits, hoperands⟩

/--
A call with one argument of one slot does the same whatever the argument, the pending
labels and the instruction before it.
-/
theorem execute_call_argument
    {op : Opcode}
    {owner name descriptor : String}
    {interface : Bool}
    {v : Value}
    {rest : List Value}
    (hcall : (Record.method op owner name descriptor interface).Executable op)
    (hpopped : poppedSlots? descriptor = some 1)
    (hreachable : m.frame.reachable = true)
    (hstack : m.frame.stack = v :: rest)
    (other : Value)
    (labels : List Label)
    (previous : Option Opcode) :
    execute (.method op owner name descriptor interface) (m.withTop other labels previous) =
      execute (.method op owner name descriptor interface) m := by
  have hstill : (m.withTop other labels previous).frame.reachable = true := hreachable
  have henough : 1 ≤ m.frame.stack.length := by
    simp [hstack]
  -- once the argument is popped, only the pending labels are different
  have hhere :
      perform (.call (receiverOf op owner name) descriptor) (m.executing op) = _ :=
    perform_call hpopped hreachable henough
  have hthere :
      perform (.call (receiverOf op owner name) descriptor)
        ((m.withTop other labels previous).executing op) = _ :=
    perform_call hpopped hstill (Nat.le_add_left 1 _)
  have hcommutes := answer_awaiting labels (receiverOf op owner name) descriptor
    { m.executing op with
      frame := { (m.executing op).frame with stack := m.frame.stack.tail } }
  rw [List.drop_one] at hhere
  rw [execute_run hcall hstill, execute_run hcall hreachable]
  apply executeReachable_of_awaiting labels
  change perform (.call (receiverOf op owner name) descriptor) _ =
    ((perform (.call (receiverOf op owner name) descriptor) _).1,
      (perform (.call (receiverOf op owner name) descriptor) _).2.awaiting labels)
  rw [hhere, hthere]
  exact hcommutes

/-- A float in place of the top of the stack, which does not get any deeper. -/
theorem after_pop_load
    {v : Value}
    {rest : List Value}
    (hcoherent : m.frame.Coherent)
    (hreachable : m.frame.reachable = true)
    (hstack : m.frame.stack = v :: rest)
    (c : Float32) :
    m.Succeeds [.bare .pop, .load (.float c)] ∧
      m.after [.bare .pop, .load (.float c)] = m.withTop (.float c) [] (some .ldc) := by
  have hdepth : rest.length + 1 ≤ m.frame.maxStack := by
    have hdepth := hcoherent.depth
    rwa [hstack] at hdepth
  have hroom : m.frame.exceeded? (rest.length + 1) = none := by
    rw [Frame.exceeded_eq_none]
    intro limit hlimit
    exact Nat.le_trans hdepth (hcoherent.within limit hlimit)
  have hpop := execute_pop hreachable hstack
  let f : Frame := { m.frame with stack := rest }
  have hload := @execute_load (m.withFrame (f.executing .pop)).finished (.float c)
    hreachable hroom rfl
  obtain ⟨hsucceeds, hafter⟩ := Runs.cons hpop (Runs.cons hload (runs_nil _))
  refine ⟨hsucceeds, hafter.trans ?_⟩
  simp only [f, withFrame, finished, withTop, Frame.executing, Frame.pushed, Constant.value,
    hstack, List.tail_cons, Nat.max_eq_left hdepth]

end Machine
end SlotFlow
