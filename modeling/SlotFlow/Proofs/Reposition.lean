import SlotFlow.Proofs.Machine.CallArgument
import SlotFlow.Proofs.Machine.Succeeds
import SlotFlow.Reposition

/-!
# Moving a component keeps the shape of the stack

The correction takes the argument of one call off the stack and loads another one in its
place. It goes only before a call that is certain to find its argument there, so the
analysis of the corrected records goes through just as the one of the records did, with
the same frames but for that argument.

Main definitions:

* `Repositioner.Positions`: the call that the correction goes before;
* `Repositioner.Corrects`: what the correction changes, and what it does not.

Main statements:

* `Repositioner.runFrom_output`: where the observer puts its correction;
* `Repositioner.positions_corrects`: the correction changes the argument only;
* `Repositioner.run_corrects`: the whole analysis.
-/

namespace SlotFlow

open Machine (start)

namespace Repositioner

variable {s t : Repositioner} {m : Machine} {f : Frame} {r : Record} {records : List Record}

/-- The record is the call that positions the component at the offset to be replaced. -/
def Positions
    (s : Repositioner)
    (r : Record)
    (f : Frame) :
    Prop :=
  ∃ op owner name descriptor interface d,
    r = .method op owner name descriptor interface ∧
      MethodDescriptor.parse? descriptor = some d ∧ s.isPositioning name d f descriptor = true

/-- The two observers look for the same call and replace the same offset. -/
structure Agrees (s t : Repositioner) : Prop where
  method : t.positioningMethod = s.positioningMethod
  offset : t.offset = s.offset
  replacement : t.replacement = s.replacement

theorem Agrees.refl
    (s : Repositioner) :
    s.Agrees s :=
  ⟨rfl, rfl, rfl⟩

theorem Agrees.correction
    (h : s.Agrees t) :
    t.correction = s.correction := by
  rw [Repositioner.correction, Repositioner.correction, h.replacement]

theorem Agrees.positions
    (h : s.Agrees t)
    (hr : t.Positions r f) :
    s.Positions r f := by
  obtain ⟨op, owner, name, descriptor, interface, d, hcall, hparse, hposition⟩ := hr
  refine ⟨op, owner, name, descriptor, interface, d, hcall, hparse, ?_⟩
  rwa [isPositioning, h.method, h.offset] at hposition

/-- A call leads the observer one stage further, or not; with the last one the correction goes. -/
theorem observeCall_eq
    (s : Repositioner)
    {name descriptor : String}
    {d : MethodDescriptor}
    (hparse : MethodDescriptor.parse? descriptor = some d)
    (f : Frame)
    (e : Emission) :
    s.observeCall name descriptor f e = ⟨s, [], .ok e⟩ ∨
      (s.stage = .construction ∧ s.observeCall name descriptor f e =
        ⟨{ s with stage := .assignment }, [s.constructedMessage], .ok e⟩) ∨
      (s.stage = .addition ∧ s.observeCall name descriptor f e =
        ⟨{ s with stage := .positioning }, [], .ok e⟩) ∨
      (s.stage = .positioning ∧ s.isPositioning name d f descriptor = true ∧
        s.observeCall name descriptor f e =
          ⟨{ s with stage := .done }, [s.rewroteMessage], .ok (e.emit s.correction)⟩) := by
  unfold observeCall
  rw [hparse]
  cases hstage : s.stage with
  | construction =>
      simp only
      split
      · exact .inr (.inl ⟨trivial, rfl⟩)
      · exact .inl rfl
  | addition =>
      simp only
      split
      · exact .inr (.inr (.inl ⟨trivial, rfl⟩))
      · exact .inl rfl
  | positioning =>
      simp only
      split
      · exact .inr (.inr (.inr ⟨trivial, by assumption, rfl⟩))
      · exact .inl rfl
  | assignment | done =>
      exact .inl rfl

/-- The observer looks at calls, and at the field that the component is stored in. -/
theorem observe_eq
    (s : Repositioner)
    (r : Record)
    (f : Frame)
    (e : Emission) :
    (∃ op owner name descriptor interface,
      r = .method op owner name descriptor interface ∧
        s.observe r f e = s.observeCall name descriptor f e) ∨
      s.observe r f e = ⟨s, [], .ok e⟩ ∨
      (s.stage = .assignment ∧ ∃ name,
        s.observe r f e = ⟨{ s with stage := .addition, field := some name }, [], .ok e⟩) := by
  unfold observe
  split
  · exact .inl ⟨_, _, _, _, _, rfl, rfl⟩
  · split
    · exact .inr (.inr ⟨by assumption, _, rfl⟩)
    · exact .inr (.inl rfl)
  · exact .inr (.inl rfl)

/--
An observer that does not fail keeps the record and stays done if it was, or it corrects
the call that positions the component and is done from here on.
-/
theorem observe_cases
    {e e' : Emission}
    (h : (s.observe r f e).outcome = .ok e') :
    s.Agrees (s.observe r f e).state ∧
      ((e' = e ∧ ((s.observe r f e).state.stage = .done ↔ s.stage = .done)) ∨
        (e' = e.emit s.correction ∧ s.stage ≠ .done ∧ (s.observe r f e).state.stage = .done ∧
          s.Positions r f)) := by
  rcases s.observe_eq r f e with
    ⟨op, owner, name, descriptor, interface, rfl, hcall⟩ | hkept | ⟨hstage, name, hstored⟩
  · rw [hcall] at h ⊢
    cases hparse : MethodDescriptor.parse? descriptor with
    | none =>
        rw [observeCall, hparse] at h
        cases h
    | some d =>
        rcases s.observeCall_eq hparse f e with
          hkept | ⟨hstage, hbuilt⟩ | ⟨hstage, hadded⟩ | ⟨hstage, hposition, hcorrected⟩
        · rw [hkept] at h ⊢
          cases h
          exact ⟨.refl s, .inl ⟨rfl, .rfl⟩⟩
        · rw [hbuilt] at h ⊢
          cases h
          exact ⟨⟨rfl, rfl, rfl⟩, .inl ⟨rfl, by simp [hstage]⟩⟩
        · rw [hadded] at h ⊢
          cases h
          exact ⟨⟨rfl, rfl, rfl⟩, .inl ⟨rfl, by simp [hstage]⟩⟩
        · rw [hcorrected] at h ⊢
          cases h
          refine ⟨⟨rfl, rfl, rfl⟩, .inr ⟨rfl, by simp [hstage], rfl, ?_⟩⟩
          exact ⟨op, owner, name, descriptor, interface, d, rfl, hparse, hposition⟩
  · rw [hkept] at h ⊢
    cases h
    exact ⟨.refl s, .inl ⟨rfl, .rfl⟩⟩
  · rw [hstored] at h ⊢
    cases h
    exact ⟨⟨rfl, rfl, rfl⟩, .inl ⟨rfl, by simp [hstage]⟩⟩

theorem notify_single
    (s : Repositioner)
    (r : Record)
    (f : Frame)
    (e : Emission) :
    (notify r f [s] e).outcome = (s.observe r f e).outcome ∧
      (notify r f [s] e).observers = [(s.observe r f e).state] := by
  have hobserve : Observer.observe s r f e = s.observe r f e := rfl
  rw [notify, hobserve]
  cases (s.observe r f e).outcome <;> exact ⟨rfl, rfl⟩

/-- An analysis keeps its records, or the correction goes before the call that positions. -/
theorem runFrom_output
    {method : Method}
    {tracing : Bool}
    {index : Nat}
    {x : Analysis}
    (h : (runFrom method tracing index m [s] records).result = .ok x) :
    ∃ t, (runFrom method tracing index m [s] records).observers = [t] ∧
      ((x.records = records ∧ (t.stage = .done ↔ s.stage = .done)) ∨
        (s.stage ≠ .done ∧ t.stage = .done ∧ ∃ before call rest,
          records = before ++ call :: rest ∧
            x.records = before ++ s.correction ++ call :: rest ∧
            s.Positions call (m.after before).frame)) := by
  induction records generalizing s m index x with
  | nil =>
      cases h
      exact ⟨s, rfl, .inl ⟨rfl, .rfl⟩⟩
  | cons r rest ih =>
      obtain ⟨e, y, hnotify, _, rfl, hrest, hobservers⟩ :=
        Machine.exists_of_runFrom_cons_eq_ok h
      obtain ⟨houtcome, hstate⟩ := s.notify_single r m.frame .none
      rw [houtcome] at hnotify
      rw [hstate] at hrest hobservers
      rw [hobservers]
      obtain ⟨t, ht, hlater⟩ := ih hrest
      refine ⟨t, ht, ?_⟩
      obtain ⟨hagrees, ⟨rfl, hstage⟩ | ⟨rfl, hstage, hdone, hpositions⟩⟩ :=
        observe_cases hnotify
      · rcases hlater with ⟨hkept, hiff⟩ | ⟨hearlier, hdone, before, call, after, hcorrected⟩
        · refine .inl ⟨?_, hiff.trans hstage⟩
          rw [hkept]
          rfl
        · obtain ⟨hsplit, hrecords, hpositions⟩ := hcorrected
          refine .inr ⟨fun h => hearlier (hstage.2 h), hdone, r :: before, call, after, ?_, ?_,
            hagrees.positions hpositions⟩
          · rw [hsplit]
            rfl
          · rw [hrecords, hagrees.correction]
            rfl
      · rcases hlater with ⟨hkept, hiff⟩ | ⟨hearlier, _⟩
        · refine .inr ⟨hstage, hiff.2 hdone, [], r, rest, rfl, ?_, hpositions⟩
          rw [hkept]
          rfl
        · exact absurd hdone hearlier

theorem eq_float_of_typesMatch
    {types : List FieldType}
    (h : CallSite.typesMatch types [some .float] = true) :
    types = [.float] := by
  rcases types with _ | ⟨type, _ | ⟨other, types⟩⟩
  · cases h
  · simp only [CallSite.typesMatch, Option.all_some, Bool.and_true, decide_eq_true_eq] at h
    rw [← h]
  · simp [CallSite.typesMatch] at h

/-- The call that positions the component has its one argument, the offset, on top. -/
theorem argument_of_isPositioning
    {name descriptor : String}
    {d : MethodDescriptor}
    (hparse : MethodDescriptor.parse? descriptor = some d)
    (h : s.isPositioning name d f descriptor = true) :
    poppedSlots? descriptor = some 1 ∧ f.reachable = true ∧
      ∃ v rest, f.stack = v :: rest ∧ v.literal = .float s.offset := by
  simp only [isPositioning, Bool.and_eq_true, decide_eq_true_eq] at h
  obtain ⟨⟨_, htypes⟩, hargument⟩ := h
  have hparameters : d.parameters = [.float] := eq_float_of_typesMatch htypes
  have hsize : d.argumentSize = 1 := by
    rw [MethodDescriptor.argumentSize, hparameters]
    rfl
  refine ⟨(methodDescriptor_eq hparse).1.trans (congrArg some hsize), ?_⟩
  rw [CallSite.argument?, CallSite.arguments?, CallSite.ready?, hparse, Option.filter_some]
    at hargument
  split at hargument
  · rename_i hready
    simp only [hsize, Bool.and_eq_true, decide_eq_true_eq] at hready
    refine ⟨hready.1, ?_⟩
    cases hstack : f.stack with
    | nil =>
        simp only [hstack, List.length_nil] at hready
        omega
    | cons v rest =>
        rw [hstack, Option.map_some, hsize, hparameters] at hargument
        injection hargument with hliteral
        exact ⟨v, rest, rfl, hliteral⟩
  · cases hargument

/--
What the correction before a call changes, and what it does not: the call finds another
offset on top of the stack, and from the call on everything is as it was.
-/
structure Corrects
    (s : Repositioner)
    (m : Machine)
    (before : List Record)
    (call : Record) : Prop where
  positions : s.Positions call (m.after before).frame
  argument :
    ∃ v rest, (m.after before).frame.stack = v :: rest ∧ v.literal = .float s.offset ∧
      (m.after (before ++ s.correction)).frame =
        { (m.after before).frame with
          stack := .float s.replacement :: rest
          current := some .ldc }
  later :
    ∀ rest, m.after (before ++ s.correction ++ call :: rest) = m.after (before ++ call :: rest)

/-- Before the call that positions the component, the correction changes its argument only. -/
theorem positions_corrects
    {before : List Record}
    {call : Record}
    (hcoherent : (m.after before).frame.Coherent)
    (hpositions : s.Positions call (m.after before).frame)
    (hcall : (Machine.execute call (m.after before)).1 = .ok ()) :
    (m.after before).Succeeds s.correction ∧
      (Machine.execute call ((m.after before).after s.correction)) =
        Machine.execute call (m.after before) ∧
      s.Corrects m before call := by
  obtain ⟨op, owner, name, descriptor, interface, d, rfl, hparse, hposition⟩ := hpositions
  obtain ⟨hpopped, hreachable, v, rest, hstack, hliteral⟩ :=
    argument_of_isPositioning hparse hposition
  have hexecutable : (Record.method op owner name descriptor interface).Executable op :=
    Machine.executable_of_succeeds rfl (Option.isSome_iff_exists.2 ⟨d, hparse⟩) hcall
  obtain ⟨hsucceeds, hcorrected⟩ :=
    Machine.after_pop_load hcoherent hreachable hstack s.replacement
  have hsame := Machine.execute_call_argument hexecutable hpopped hreachable hstack
    (.float s.replacement) [] (some .ldc)
  have hcorrection : (m.after before).after s.correction = _ := hcorrected
  rw [← hcorrection] at hsame
  refine ⟨hsucceeds, hsame, ?_, ⟨v, rest, hstack, hliteral, ?_⟩, ?_⟩
  · exact ⟨op, owner, name, descriptor, interface, d, rfl, hparse, hposition⟩
  · rw [Machine.after_append, hcorrection, Machine.withTop, hstack, List.tail_cons]
  · intro rest
    rw [Machine.after_append, Machine.after_append, Machine.after_append, Machine.after,
      Machine.after, hsame]

/--
An analysis with the observer reports its records, and the observer is not done; or it
reports them with the correction before one call, and the observer is done. Without
observers the analysis of what was reported goes through and reports the same; the
correction changes the argument of the call and nothing after it.
-/
theorem run_corrects
    (hstage : s.stage ≠ .done)
    {method : Method}
    {settings : Settings}
    {x : Analysis}
    (h : (run method settings [s] records).result = .ok x) :
    ∃ t m, (run method settings [s] records).observers = [t] ∧
      start method settings = .ok m ∧
      (analyze method settings x.records).result = .ok x ∧
      ((x.records = records ∧ t.stage ≠ .done) ∨
        (t.stage = .done ∧ ∃ before call rest,
          records = before ++ call :: rest ∧
            x.records = before ++ s.correction ++ call :: rest ∧
            s.Corrects m before call)) := by
  cases hstart : start method settings with
  | error fault =>
      rw [run, hstart] at h
      cases h
  | ok m =>
      obtain ⟨hresult, hobservers⟩ := Machine.run_eq hstart [s] records
      rw [hresult] at h
      obtain ⟨hsucceeds, hstack, hlocals⟩ := Machine.succeeds_of_runFrom_eq_ok h
      obtain ⟨t, ht, houtput⟩ := runFrom_output h
      refine ⟨t, m, hobservers.trans ht, rfl, ?_⟩
      have hreported (hafter : m.after x.records = m.after records) :
          x = m.reported x.records := by
        rw [Machine.reported, hafter, ← hstack, ← hlocals]
      rcases houtput with
        ⟨hkept, hiff⟩ | ⟨_, hdone, before, call, rest, rfl, hrecords, hpositions⟩
      · refine ⟨Machine.analyze_eq_ok_iff.2 ⟨m, hstart, ?_, ?_⟩,
          .inl ⟨hkept, fun hdone => hstage (hiff.1 hdone)⟩⟩
        · rwa [hkept]
        · exact hreported (by rw [hkept])
      · have hcoherent := Machine.after_coherent (Machine.start_coherent hstart).1 before
        obtain ⟨hbefore, hcall, hrest⟩ := (Machine.succeeds_append before _).1 hsucceeds
        obtain ⟨hcorrection, hsame, hcorrects⟩ :=
          positions_corrects hcoherent hpositions hcall
        refine ⟨Machine.analyze_eq_ok_iff.2 ⟨m, hstart, ?_, ?_⟩,
          .inr ⟨hdone, before, call, rest, rfl, hrecords, hcorrects⟩⟩
        · rw [hrecords, Machine.succeeds_append, Machine.succeeds_append, Machine.after_append]
          refine ⟨⟨hbefore, hcorrection⟩, ?_, ?_⟩
          · rw [hsame]
            exact hcall
          · rw [hsame]
            exact hrest
        · apply hreported
          rw [hrecords, hcorrects.later rest]

/-- A button is built and stored in a field. -/
def building : List Record :=
  [.bare .aconstNull, .load (.string "Mods..."), .bare .aconstNull, .bare .aconstNull,
    .bare .fconst1, .bare .fconst1,
    .method .invokestatic "a/Factory" "button"
      "(Ljava/lang/String;Ljava/lang/String;La/Align;FF)La/Button;" false,
    .field .putfield "A" "button" "La/Button;"]

/-- The button is added to a panel, and an offset is loaded. -/
def adding : List Record :=
  [.bare .aconstNull, .field .getfield "A" "button" "La/Button;",
    .method .invokestatic "a/Panel" "add" "(La/Button;)V" false,
    .bare .aconstNull, .load (.float 25)]

/-- The button is positioned, and the method ends. -/
def positioning : List Record :=
  [.method .invokevirtual "a/Button" "inBMid" "(F)V" false, .bare .returnVoid]

/-- A fresh observer follows a button to the call that positions it. -/
theorem run_corrects_button :
    let method : Method := ⟨"A", "run", "()V", true⟩
    let s := standard "a/Button" "a/Align"
    let records := building ++ adding ++ positioning
    let corrected := building ++ adding ++ s.correction ++ positioning
    (run method .standard [s] records).result = .ok ⟨corrected, 6, 0⟩ ∧
      (analyze method .standard corrected).result = .ok ⟨corrected, 6, 0⟩ := by
  intro method s records corrected
  have hrun : (run method .standard [s] records).result = .ok ⟨corrected, 6, 0⟩ := by
    decide +kernel
  obtain ⟨_, _, _, _, hanalysis, _⟩ := run_corrects (by decide) hrun
  exact ⟨hrun, hanalysis⟩

end Repositioner
end SlotFlow
