import SlotFlow.Proofs.Observation

/-!
# Analyses with the observer that moves a component

The observer reads the descriptor of every call that it is shown, whatever its stage and
whether or not control reaches the call. This is all that it can fail at: attached to an
analysis that goes through, it breaks it at the first call whose descriptor is none of a
method, and nowhere else. The machine is more lenient. It does not look at calls that
control does not reach, and it accepts the descriptor of a field in a call.

Main definition:

* `Record.misdescribed?`: the descriptor of a call that is none of a method.

Main statements:

* `Repositioner.observe_outcome`: the only fault of the observer;
* `Repositioner.run_attached`: what becomes of an analysis that goes through.
-/

namespace SlotFlow

/-- The descriptor of a call, if it is not that of a method. -/
def Record.misdescribed? : Record → Option String
  | .method _ _ _ descriptor _ =>
      if (MethodDescriptor.parse? descriptor).isSome then none else some descriptor
  | _ => none

namespace Repositioner

variable {s : Repositioner} {m : Machine} {records : List Record}

/-- The observer fails at the calls without the descriptor of a method, and at no others. -/
theorem observe_outcome
    (s : Repositioner)
    (r : Record)
    (f : Frame)
    (e : Emission) :
    (r.misdescribed? = none ∧ ∃ later, (s.observe r f e).outcome = .ok later) ∨
      ∃ descriptor, r.misdescribed? = some descriptor ∧
        s.observe r f e = ⟨s, [], .error (.invalidDescriptor descriptor)⟩ := by
  cases r with
  | method op owner name descriptor interface =>
      cases hparse : MethodDescriptor.parse? descriptor with
      | none =>
          right
          refine ⟨descriptor, ?_, ?_⟩
          · simp [Record.misdescribed?, hparse]
          · rw [observe, observeCall, hparse]
      | some d =>
          left
          refine ⟨by simp [Record.misdescribed?, hparse], ?_⟩
          change ∃ later, (s.observeCall name descriptor f e).outcome = .ok later
          rcases s.observeCall_eq hparse f e with h | ⟨_, h⟩ | ⟨_, h⟩ | ⟨_, _, h⟩ <;>
            exact ⟨_, congrArg Reaction.outcome h⟩
  | field op owner name descriptor =>
      left
      refine ⟨rfl, ?_⟩
      rcases s.observe_eq (.field op owner name descriptor) f e with
        ⟨_, _, _, _, _, h, _⟩ | h | ⟨_, _, h⟩
      · cases h
      · exact ⟨_, congrArg Reaction.outcome h⟩
      · exact ⟨_, congrArg Reaction.outcome h⟩
  | _ =>
      exact .inl ⟨rfl, e, rfl⟩

/-- One record of an analysis that the observer and the machine let pass. -/
theorem runFrom_passed
    {r : Record}
    {e : Emission}
    {next : Machine}
    (hobserve : (s.observe r m.frame .none).outcome = .ok e)
    (hstep : m.execute r = (.ok (), next))
    (method : Method)
    (tracing : Bool)
    (index : Nat)
    (rest : List Record) :
    (runFrom method tracing index m [s] (r :: rest)).result =
      (runFrom method tracing (index + 1) next [(s.observe r m.frame .none).state] rest).result.map
        fun a => { a with records := e.output r ++ a.records } := by
  obtain ⟨hnotified, hstate⟩ := s.notify_single r m.frame .none
  rw [runFrom, hnotified, hstate]
  simp only [hobserve, hstep]
  rfl

/-- Where all records succeed, the first call that is misdescribed ends the analysis. -/
theorem runFrom_attached
    (hsucceeds : m.Succeeds records)
    (s : Repositioner)
    (method : Method)
    (tracing : Bool)
    (index : Nat) :
    match records.findSome? Record.misdescribed? with
    | none => ∃ y, (runFrom method tracing index m [s] records).result = .ok y
    | some descriptor =>
        (runFrom method tracing index m [s] records).result =
          .error (.invalidDescriptor descriptor) := by
  induction records generalizing m s index with
  | nil =>
      exact ⟨_, rfl⟩
  | cons r rest ih =>
      -- The observer may be at any stage: what it fails at does not depend on it.
      rw [List.findSome?_cons]
      rcases s.observe_outcome r m.frame .none with
        ⟨hdescribed, e, he⟩ | ⟨descriptor, hdescriptor, hfails⟩
      · obtain ⟨hstep, hrest⟩ := hsucceeds
        have hpassed := runFrom_passed he (Prod.ext hstep rfl) method tracing index rest
        have hlater := ih hrest (s.observe r m.frame .none).state (index + 1)
        rw [hdescribed, hpassed]
        cases hfind : rest.findSome? Record.misdescribed? with
        | none =>
            rw [hfind] at hlater
            obtain ⟨y, hy⟩ := hlater
            rw [hy]
            exact ⟨_, rfl⟩
        | some descriptor =>
            rw [hfind] at hlater
            rw [hlater]
            rfl
      · rw [hdescriptor, runFrom, (s.notify_single r m.frame .none).1, hfails]
        rfl

/--
The observer is attached to an analysis that goes through. If every call has the
descriptor of a method, reached or not, the analysis goes through as before, with the same
marks; else it ends at the first call that has not, with a fault that names the descriptor.
-/
theorem run_attached
    {method : Method}
    {settings : Settings}
    {x : Analysis}
    (h : (analyze method settings records).result = .ok x)
    (s : Repositioner) :
    ((∀ r ∈ records, r.misdescribed? = none) →
      ∃ y, (run method settings [s] records).result = .ok y ∧ y.marks = x.marks) ∧
    ∀ descriptor, records.findSome? Record.misdescribed? = some descriptor →
      (run method settings [s] records).result = .error (.invalidDescriptor descriptor) := by
  obtain ⟨m, hstart, hsucceeds, rfl⟩ := Machine.analyze_eq_ok_iff.1 h
  rw [(Machine.run_eq hstart [s] records).1]
  have hattached := runFrom_attached hsucceeds s method settings.tracing 0
  constructor
  · intro hdescribed
    rw [List.findSome?_eq_none_iff.2 hdescribed] at hattached
    obtain ⟨y, hy⟩ := hattached
    obtain ⟨_, hstack, hlocals⟩ := Machine.succeeds_of_runFrom_eq_ok hy
    exact ⟨y, hy, Prod.ext hstack hlocals⟩
  · intro descriptor hdescriptor
    rw [hdescriptor] at hattached
    exact hattached

/-- The observer is attached to the analysis of a method that positions a button. -/
theorem run_attached_button :
    let method : Method := ⟨"A", "run", "()V", true⟩
    let records := building ++ adding ++ positioning
    (analyze method .standard records).result = .ok ⟨records, 6, 0⟩ ∧
      ∃ y, (run method .standard [standard "a/Button" "a/Align"] records).result = .ok y ∧
        y.marks = (6, 0) := by
  intro method records
  have hanalysis : (analyze method .standard records).result = .ok ⟨records, 6, 0⟩ := by
    decide +kernel
  have hdescribed : ∀ r ∈ records, r.misdescribed? = none := by
    decide +kernel
  exact ⟨hanalysis, (run_attached hanalysis (standard "a/Button" "a/Align")).1 hdescribed⟩

/--
A call that control does not reach, and one with the descriptor of a field: the analyses
go through, and with the observer they do not.
-/
theorem run_attached_misdescribed :
    let method : Method := ⟨"A", "run", "()V", true⟩
    let s := standard "a/Button" "a/Align"
    let unreached : List Record :=
      [.bare .returnVoid, .method .invokestatic "A" "f" "oops" false]
    let lenient : List Record :=
      [.bare .iconst1, .method .invokestatic "A" "f" "I" false, .bare .pop, .bare .returnVoid]
    (analyze method .standard unreached).result = .ok ⟨unreached, 0, 0⟩ ∧
      (run method .standard [s] unreached).result = .error (.invalidDescriptor "oops") ∧
      (analyze method .standard lenient).result = .ok ⟨lenient, 1, 0⟩ ∧
      (run method .standard [s] lenient).result = .error (.invalidDescriptor "I") := by
  decide +kernel

end Repositioner
end SlotFlow
