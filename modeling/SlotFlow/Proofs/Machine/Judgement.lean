import SlotFlow.Proofs.Machine.Reached

/-!
# Judgements on operations

A property of operations that goes over to operations in a row holds of every step of the
machine as soon as it holds of the few operations that steps are made of.

Main definitions:

* `Frame.Judgement`: a property that the basic operations on frames have and that goes
  over to operations in a row;
* `Machine.EffectJudgement`: the same of the operations that effects are made of;
* `Machine.Judgement`: the same of steps of the machine;
* `Commutes`: operations that a change of the state goes through unchanged.

Main statements:

* `Frame.Judgement.arithmetic`, `Frame.Judgement.pushDescriptor`, …: composite
  operations on frames;
* `Machine.EffectJudgement.perform`, `Machine.Judgement.execute`: one effect, one record.
-/

namespace SlotFlow

/-- A property of operations on frames that composite operations have if basic ones do. -/
structure Frame.Judgement (J : (α : Type) → FrameM α → Prop) : Prop where
  pure : ∀ {α : Type} (a : α), J α (pure a)
  throw : ∀ {α : Type} (e : Fault), J α (throw e)
  bind :
    ∀ {α β : Type} {act : FrameM α} {next : α → FrameM β},
      J α act → (∀ a, J β (next a)) → J β (act >>= next)
  getLocal : ∀ index, J Value (getLocal index)
  setLocal : ∀ index v, J Unit (setLocal index v)
  push : ∀ v, J Unit (push v)
  pop : J Value pop
  popWide : ∀ count, J Value (popWide count)
  popMany : ∀ count, J Unit (popMany count)
  resetTo : ∀ locals stack, J Unit (resetTo locals stack)

namespace Frame.Judgement

variable {J : (α : Type) → FrameM α → Prop}

theorem pushSized
    (hJ : Frame.Judgement J)
    (v : Value) :
    J Unit (Frame.pushSized v) := by
  apply hJ.bind (hJ.push v)
  intro _
  split
  · exact hJ.push .top
  · exact hJ.pure ()

theorem orInvalid
    (hJ : Frame.Judgement J)
    {α : Type}
    (descriptor : String)
    (read : Option α) :
    J α (Frame.orInvalid descriptor read) := by
  cases read with
  | none =>
      exact hJ.throw _
  | some a =>
      exact hJ.pure a

theorem popDescriptor
    (hJ : Frame.Judgement J)
    (descriptor : String) :
    J Unit (Frame.popDescriptor descriptor) := by
  apply hJ.bind (hJ.orInvalid descriptor _)
  intro count
  exact hJ.popMany count

theorem pushDescriptor
    (hJ : Frame.Judgement J)
    (descriptor : String)
    (field : Option String) :
    J Unit (Frame.pushDescriptor descriptor field) := by
  apply hJ.bind (hJ.orInvalid descriptor _)
  intro type
  cases type with
  | none =>
      exact hJ.pure ()
  | some type =>
      exact hJ.pushSized _

theorem popCells
    (hJ : Frame.Judgement J)
    (count : Nat) :
    J (List Value) (Machine.popCells count) := by
  induction count with
  | zero =>
      exact hJ.pure []
  | succ count ih =>
      apply hJ.bind hJ.pop
      intro v
      apply hJ.bind ih
      intro rest
      exact hJ.pure (v :: rest)

theorem pushCells
    (hJ : Frame.Judgement J)
    (cells : List Value) :
    J Unit (Machine.pushCells cells) := by
  induction cells with
  | nil =>
      exact hJ.pure ()
  | cons v rest ih =>
      apply hJ.bind (hJ.push v)
      intro _
      exact ih

theorem folded
    (hJ : Frame.Judgement J)
    (folding : Bool)
    (result : Except Fault Literal) :
    J Literal (Machine.folded folding result) := by
  unfold Machine.folded
  split
  · cases result with
    | ok l =>
        exact hJ.pure l
    | error e =>
        exact hJ.throw e
  · exact hJ.pure Literal.unknown

theorem arithmetic
    (hJ : Frame.Judgement J)
    (folding : Bool)
    (op : Opcode)
    (signature : Signature) :
    J Unit (Machine.arithmetic folding op signature) := by
  cases signature with
  | unary operand result =>
      apply hJ.bind (hJ.popWide operand.slots)
      intro v
      apply hJ.bind (hJ.folded folding _)
      intro l
      exact hJ.pushSized _
  | binary left right result =>
      apply hJ.bind (hJ.popWide right.slots)
      intro r
      apply hJ.bind (hJ.popWide left.slots)
      intro v
      apply hJ.bind (hJ.folded folding _)
      intro l
      exact hJ.pushSized _

end Frame.Judgement

namespace Machine

/-- A property that all effects have if basic steps and operations on frames do. -/
structure EffectJudgement
    (J : (α : Type) → FrameM α → Prop)
    (K : (α : Type) → MachineM α → Prop) : Prop where
  frame : Frame.Judgement J
  pure : ∀ {α : Type} (a : α), K α (pure a)
  throw : ∀ {α : Type} (e : Fault), K α (throw e)
  bind :
    ∀ {α β : Type} {act : MachineM α} {next : α → MachineM β},
      K α act → (∀ a, K β (next a)) → K β (act >>= next)
  onFrame : ∀ {α : Type} {act : FrameM α}, J α act → K α (onFrame act)
  folding :
    ∀ {α : Type} (act : Bool → MachineM α),
      (∀ folding, K α (act folding)) → K α fun m => act m.folding m
  completeConstruction : ∀ v callOwner, K Unit (completeConstruction v callOwner)
  create : ∀ type, K Unit (create type)

/-- A property of steps that executing any record has if basic steps do. -/
structure Judgement
    (J : (α : Type) → FrameM α → Prop)
    (K : (α : Type) → MachineM α → Prop) : Prop
    extends EffectJudgement J K where
  executeReachable :
    ∀ op {effect}, K Unit (perform effect) → K Unit (executeReachable op effect)
  whereReachable :
    ∀ {act : MachineM Unit},
      K Unit act → K Unit fun m => if m.frame.reachable then act m else (.ok (), m.finished)
  label : ∀ l, K Unit (execute (.label l))

variable {J : (α : Type) → FrameM α → Prop} {K : (α : Type) → MachineM α → Prop}

namespace EffectJudgement

theorem popReceiver
    (hK : EffectJudgement J K)
    (receiver : Receiver) :
    K Unit (Machine.popReceiver receiver) := by
  cases receiver with
  | none =>
      exact hK.pure ()
  | object =>
      apply hK.bind (hK.onFrame hK.frame.pop)
      intro _
      exact hK.pure ()
  | constructed owner =>
      apply hK.bind (hK.onFrame hK.frame.pop)
      intro v
      exact hK.completeConstruction v owner

/-- Every effect is carried out by basic operations in a row. -/
theorem perform
    (hK : EffectJudgement J K)
    (effect : Effect) :
    K Unit (Machine.perform effect) := by
  have hJ := hK.frame
  cases effect with
  | nothing =>
      exact hK.pure ()
  | push v =>
      exact hK.onFrame (hJ.pushSized v)
  | discard slots =>
      exact hK.onFrame (hJ.popMany slots)
  | replace slots v =>
      rw [Machine.perform]
      apply hK.onFrame
      apply hJ.bind (hJ.popMany slots)
      intro _
      exact hJ.pushSized v
  | load index wide =>
      rw [Machine.perform]
      apply hK.onFrame
      apply hJ.bind (hJ.getLocal index)
      intro v
      apply hJ.bind (hJ.push v)
      intro _
      split
      · exact hJ.push .top
      · exact hJ.pure ()
  | store index slots =>
      rw [Machine.perform]
      apply hK.onFrame
      apply hJ.bind (hJ.popWide slots)
      intro v
      exact hJ.setLocal index v
  | increment index delta =>
      refine hK.folding (fun folding => Machine.onFrame do
        let v ← Frame.getLocal index
        Frame.setLocal index (incremented folding v delta)) ?_
      intro folding
      apply hK.onFrame
      apply hJ.bind (hJ.getLocal index)
      intro v
      exact hJ.setLocal index _
  | element =>
      rw [Machine.perform]
      apply hK.onFrame
      apply hJ.bind hJ.pop
      intro _
      apply hJ.bind hJ.pop
      intro v
      exact hJ.push _
  | shuffle slots order =>
      rw [Machine.perform]
      apply hK.onFrame
      apply hJ.bind (hJ.popCells slots)
      intro cells
      exact hJ.pushCells _
  | arithmetic op signature =>
      apply hK.folding fun folding => Machine.onFrame (Machine.arithmetic folding op signature)
      intro folding
      exact hK.onFrame (hJ.arithmetic folding op signature)
  | readField static name descriptor =>
      rw [Machine.perform]
      apply hK.onFrame
      cases static with
      | true =>
          exact hJ.pushDescriptor descriptor (some name)
      | false =>
          apply hJ.bind hJ.pop
          intro _
          exact hJ.pushDescriptor descriptor (some name)
  | writeField static descriptor =>
      rw [Machine.perform]
      apply hK.onFrame
      apply hJ.bind (hJ.popDescriptor descriptor)
      intro _
      cases static with
      | true =>
          exact hJ.pure ()
      | false =>
          exact hJ.popMany 1
  | call receiver descriptor =>
      apply hK.bind (hK.onFrame (hJ.popDescriptor descriptor))
      intro _
      apply hK.bind (hK.popReceiver receiver)
      intro _
      exact hK.onFrame (hJ.pushDescriptor descriptor none)
  | create type =>
      exact hK.create type
  | refuse fault =>
      exact hK.throw fault

end EffectJudgement

namespace Judgement

theorem executeInstruction
    (hK : Judgement J K)
    (op : Opcode)
    (r : Record) :
    K Unit (Machine.executeInstruction op r) := by
  unfold Machine.executeInstruction
  split
  · exact hK.throw _
  · split
    · exact hK.throw _
    · exact hK.whereReachable (hK.executeReachable op (hK.perform r.effect))

/-- What holds of the basic operations holds of executing a record. -/
theorem execute
    (hK : Judgement J K)
    (r : Record) :
    K Unit (Machine.execute r) := by
  cases hop : r.opcode? with
  | some op =>
      rw [execute_of_opcode hop]
      exact hK.executeInstruction op r
  | none =>
      cases r with
      | label l =>
          exact hK.label l
      | frame f =>
          rw [Machine.execute]
          split
          · exact hK.onFrame (hK.frame.resetTo f.locals f.stack)
          · exact hK.throw _
      | _ =>
          cases hop

end Judgement
end Machine

section Commutes

variable {σ α β : Type} {change : σ → σ}

/-- On a changed state the operation does the same, and leaves what it leaves else changed. -/
def Commutes
    (change : σ → σ)
    (act : ExceptT Fault (StateM σ) α) :
    Prop :=
  ∀ s, act (change s) = ((act s).1, change (act s).2)

theorem Commutes.bind
    {act : ExceptT Fault (StateM σ) α}
    {next : α → ExceptT Fault (StateM σ) β}
    (h : Commutes change act)
    (hnext : ∀ a, Commutes change (next a)) :
    Commutes change (act >>= next) := by
  intro s
  rw [run_bind, run_bind, h s]
  rcases act s with ⟨e | a, t⟩
  · rfl
  · exact hnext a t

theorem commutes_pure
    (a : α) :
    Commutes change (pure a) :=
  fun _ => rfl

theorem commutes_throw
    (e : Fault) :
    Commutes change (throw e : ExceptT Fault (StateM σ) α) :=
  fun _ => rfl

end Commutes
end SlotFlow
