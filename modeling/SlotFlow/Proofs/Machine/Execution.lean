import SlotFlow.Proofs.Machine.Consistent

/-!
# What executing a record does

A label is kept, a frame record replaces the frame or is refused. An instruction is refused
before anything else if it is not supported or does not take its operands; it is passed over
where control cannot be; otherwise its effect is carried out, and control may end with it.

Main definitions:

* `Record.Accepted`: the instructions that pass the checks before execution;
* `Machine.Execution`: the ways in which executing a record goes;
* `StaysReachable`: operations that leave a reachable frame reachable.

Main statements:

* `after_concat`: one more record;
* `execute_execution`: it goes one of these ways;
* `exists_performed_of_execute`: what an instruction leaves that succeeds;
* `perform_reachable`: carrying an effect out leaves a reachable frame reachable.
-/

namespace SlotFlow

/-- A place in a list with one more element at its end is that element, or was there before. -/
theorem concat_eq_append_cons_iff
    {α : Type}
    {records before later : List α}
    {r x : α} :
    records ++ [r] = before ++ x :: later ↔
      (later = [] ∧ records = before ∧ r = x) ∨
        ∃ rest, later = rest ++ [r] ∧ records = before ++ x :: rest := by
  constructor
  · intro h
    rcases List.eq_nil_or_concat later with rfl | ⟨rest, last, rfl⟩
    · obtain ⟨hrecords, hlast⟩ := List.append_inj' h rfl
      cases hlast
      exact .inl ⟨rfl, hrecords, rfl⟩
    · rw [List.concat_eq_append, ← List.cons_append, ← List.append_assoc] at h
      obtain ⟨hrecords, hlast⟩ := List.append_inj' h rfl
      cases hlast
      exact .inr ⟨rest, List.concat_eq_append, hrecords⟩
  · rintro (⟨rfl, rfl, rfl⟩ | ⟨rest, rfl, rfl⟩)
    · rfl
    · simp

/-- A supported instruction whose opcode takes the operands that it stands with. -/
structure Record.Accepted
    (r : Record)
    (op : Opcode) : Prop where
  opcode : r.opcode? = some op
  plain : op.isSubroutine = false
  fits : r.misfit? = none

/-- Labels and frames are no instructions. -/
theorem Record.not_accepted_of_opcode
    {r : Record}
    (h : r.opcode? = none)
    (op : Opcode) :
    ¬ r.Accepted op := by
  intro haccepted
  have hop := haccepted.opcode
  rw [h] at hop
  cases hop

namespace Machine

variable {m : Machine} {r : Record}

theorem after_concat
    (m : Machine)
    (records : List Record)
    (r : Record) :
    m.after (records ++ [r]) = (execute r (m.after records)).2 :=
  m.after_append records [r]

/-- How executing a record goes, with what it returns and the machine that it leaves. -/
inductive Execution (m : Machine) : Record → Except Fault Unit → Machine → Prop
  | label
      (l : Label) :
      Execution m (.label l) (.ok ()) { m with pending := m.pending ++ [l] }
  | reset
      {f : FrameRecord}
      (kind : f.kind = .expanded)
      (room : m.frame.exceeded? (Frame.expand f.stack).length = none) :
      Execution m (.frame f) (.ok ()) { m with frame := m.frame.reset f.locals f.stack }
  | frameRefused
      {f : FrameRecord}
      (fault : Fault) :
      Execution m (.frame f) (.error fault) m
  | refused
      {r : Record}
      {op : Opcode}
      (opcode : r.opcode? = some op)
      (rejected : ¬ r.Accepted op)
      (fault : Fault) :
      Execution m r (.error fault) m
  | passed
      {r : Record}
      {op : Opcode}
      (accepted : r.Accepted op)
      (unreachable : m.frame.reachable = false) :
      Execution m r (.ok ()) m.finished
  | failed
      {r : Record}
      {op : Opcode}
      {fault : Fault}
      {next : Machine}
      (accepted : r.Accepted op)
      (reachable : m.frame.reachable = true)
      (performed : perform r.effect (m.executing op) = (.error fault, next)) :
      Execution m r (.error fault) next.finished
  | continued
      {r : Record}
      {op : Opcode}
      {next : Machine}
      (accepted : r.Accepted op)
      (reachable : m.frame.reachable = true)
      (performed : perform r.effect (m.executing op) = (.ok (), next))
      (continues : op.endsFlow = false) :
      Execution m r (.ok ()) next.finished
  | ended
      {r : Record}
      {op : Opcode}
      {next : Machine}
      (accepted : r.Accepted op)
      (reachable : m.frame.reachable = true)
      (performed : perform r.effect (m.executing op) = (.ok (), next))
      (ends : op.endsFlow = true) :
      Execution m r (.ok ()) { next.finished with frame := next.frame.leave }

theorem executeReachable_execution
    {op : Opcode}
    (haccepted : r.Accepted op)
    (hreachable : m.frame.reachable = true) :
    Execution m r (executeReachable op r.effect m).1 (executeReachable op r.effect m).2 := by
  unfold executeReachable
  rcases hperform : perform r.effect (m.executing op) with ⟨fault | _, next⟩
  · exact .failed haccepted hreachable hperform
  · cases hends : op.endsFlow with
    | false =>
        exact .continued haccepted hreachable hperform hends
    | true =>
        exact .ended haccepted hreachable hperform hends

theorem executeInstruction_execution
    {op : Opcode}
    (hop : r.opcode? = some op)
    (m : Machine) :
    Execution m r (executeInstruction op r m).1 (executeInstruction op r m).2 := by
  unfold executeInstruction
  cases hplain : op.isSubroutine with
  | true =>
      refine .refused hop (fun haccepted => ?_) _
      rw [haccepted.plain] at hplain
      cases hplain
  | false =>
      cases hfits : r.misfit? with
      | some misfit =>
          refine .refused hop (fun haccepted => ?_) _
          rw [haccepted.fits] at hfits
          cases hfits
      | none =>
          have haccepted : r.Accepted op := ⟨hop, hplain, hfits⟩
          cases hreachable : m.frame.reachable with
          | false =>
              simp only [Bool.false_eq_true, if_false, hreachable]
              exact .passed haccepted hreachable
          | true =>
              simp only [Bool.false_eq_true, if_false, hreachable, if_true]
              exact executeReachable_execution haccepted hreachable

theorem resetTo_execution
    {f : FrameRecord}
    (hkind : f.kind = .expanded)
    (m : Machine) :
    Execution m (.frame f) (onFrame (Frame.resetTo f.locals f.stack) m).1
      (onFrame (Frame.resetTo f.locals f.stack) m).2 := by
  unfold onFrame Frame.resetTo
  cases hroom : m.frame.exceeded? (Frame.expand f.stack).length with
  | some limit =>
      simp only [hroom]
      exact .frameRefused _
  | none =>
      simp only [hroom]
      exact .reset hkind hroom

/-- Executing a record goes one of the ways. -/
theorem execute_execution
    (r : Record)
    (m : Machine) :
    Execution m r (execute r m).1 (execute r m).2 := by
  cases hop : r.opcode? with
  | some op =>
      rw [execute_of_opcode hop]
      exact executeInstruction_execution hop m
  | none =>
      cases r with
      | label l =>
          exact .label l
      | frame f =>
          rw [execute]
          by_cases hkind : f.kind = .expanded
          · rw [if_pos hkind]
            exact resetTo_execution hkind m
          · rw [if_neg hkind]
            exact .frameRefused _
      | _ =>
          cases hop

/-- What a record leaves that succeeds where control can be, and that does not end the flow. -/
theorem exists_performed_of_execute
    {r : Record}
    {op : Opcode}
    (hop : r.opcode? = some op)
    (hreachable : m.frame.reachable = true)
    (hcontinues : op.endsFlow = false)
    (h : (execute r m).1 = .ok ()) :
    ∃ n, perform r.effect (m.executing op) = (.ok (), n) ∧ (execute r m).2 = n.finished := by
  have hexecution := execute_execution r m
  rw [h] at hexecution
  generalize (execute r m).2 = next at hexecution
  cases hexecution with
  | label | reset =>
      cases hop
  | passed accepted unreachable =>
      rw [hreachable] at unreachable
      cases unreachable
  | @continued _ other n accepted reachable performed continues =>
      rw [accepted.opcode] at hop
      cases hop
      exact ⟨n, performed, rfl⟩
  | ended accepted reachable performed ends =>
      rw [accepted.opcode] at hop
      cases hop
      rw [hcontinues] at ends
      cases ends

end Machine

section StaysReachable

variable {σ α β : Type} {view : σ → Frame}

/-- Whether or not it fails, an operation leaves a reachable frame reachable. -/
def StaysReachable
    (view : σ → Frame)
    (act : ExceptT Fault (StateM σ) α) :
    Prop :=
  ∀ s, (view s).reachable = true → (view (act s).2).reachable = true

theorem StaysReachable.bind
    {act : ExceptT Fault (StateM σ) α}
    {next : α → ExceptT Fault (StateM σ) β}
    (h : StaysReachable view act)
    (hnext : ∀ a, StaysReachable view (next a)) :
    StaysReachable view (act >>= next) := by
  intro s hs
  have hfirst := h s hs
  rw [run_bind]
  rcases hact : act s with ⟨e | a, t⟩
  · rwa [hact] at hfirst
  · rw [hact] at hfirst
    exact hnext a t hfirst

end StaysReachable

namespace Frame

theorem staysReachable_whenReachable
    {α : Type}
    {act : Frame → Except Fault α × Frame}
    (h : ∀ f, f.reachable = true → (act f).2.reachable = true) :
    StaysReachable Frame.view (whenReachable act) := by
  intro f hf
  unfold whenReachable
  rw [if_pos hf]
  exact h f hf

/-- Every operation on frames leaves a reachable one reachable. -/
theorem staysReachable_judgement :
    Judgement fun _ => StaysReachable Frame.view where
  pure _ _ hf := hf
  throw _ _ hf := hf
  bind := StaysReachable.bind
  getLocal index := staysReachable_whenReachable fun _ hf => hf
  setLocal index v := staysReachable_whenReachable fun _ hf => hf
  push v := by
    apply staysReachable_whenReachable
    intro f hf
    split <;> exact hf
  pop := by
    apply staysReachable_whenReachable
    intro f hf
    split <;> exact hf
  popWide count := by
    apply staysReachable_whenReachable
    intro f hf
    split <;> exact hf
  popMany count := by
    apply staysReachable_whenReachable
    intro f hf
    split <;> exact hf
  resetTo locals stack f hf := by
    unfold resetTo
    simp only
    split
    · exact hf
    · rfl

end Frame

namespace Machine

/-- Every effect leaves a reachable frame reachable. -/
theorem staysReachable_judgement :
    EffectJudgement (fun _ => StaysReachable Frame.view) (fun _ => StaysReachable frame) where
  frame := Frame.staysReachable_judgement
  pure _ _ hm := hm
  throw _ _ hm := hm
  bind := StaysReachable.bind
  onFrame h m := h m.frame
  folding _ h m := h m.folding m
  completeConstruction v callOwner m hm := by
    unfold completeConstruction
    split <;> exact hm
  create type m hm := by
    unfold create
    split <;> exact Frame.staysReachable_judgement.push _ m.frame hm

/-- Carrying an effect out leaves a reachable frame reachable. -/
theorem perform_reachable
    {m next : Machine}
    {effect : Effect}
    {result : Except Fault Unit}
    (hperform : perform effect m = (result, next))
    (hreachable : m.frame.reachable = true) :
    next.frame.reachable = true := by
  have hstays := staysReachable_judgement.perform effect m hreachable
  rwa [hperform] at hstays

end Machine
end SlotFlow
