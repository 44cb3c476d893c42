import SlotFlow.Proofs.Machine.Reachability
import SlotFlow.Proofs.Reposition.Stages

/-!
# Dead code and the observer that moves a component

The calls that the observer waits for are told by their arguments, and where control cannot
be a call has none. A store is told by the record alone: an observer that waits for one
takes it from dead code, too, and goes on with its field. That is the only record of dead
code that it does not ignore.

Main definition:

* `Repositioner.Ignores`: a record changes neither the observer nor the output.

Main statements:

* `Awaits.stored_of_unreachable`: in dead code the observer waits for stores only;
* `Moved.reachable`: the component was built, added and positioned where control can be;
* `dead_code_stores_only`: what the observer does with dead code.
-/

namespace SlotFlow

theorem CallSite.reachable_of_argument
    {f : Frame}
    {descriptor : String}
    {index : Nat}
    {v : Value}
    (h : argument? f descriptor index = some v) :
    f.reachable = true := by
  cases hreachable : f.reachable with
  | true =>
      rfl
  | false =>
      simp [argument?, arguments?, ready?, hreachable] at h

theorem Sight.Adds.reachable
    {x : Sight}
    {field : String}
    (h : x.Adds field) :
    x.frame.reachable = true := by
  obtain ⟨_, _, _, _, hargument, _⟩ := h
  exact CallSite.reachable_of_argument hargument

namespace Repositioner

variable {s t t' : Repositioner} {x : Sight}

theorem Builds.reachable
    (h : s.Builds x) :
    x.frame.reachable = true := by
  obtain ⟨_, _, _, _, _, _, _, _, _, hargument, _⟩ := h
  exact CallSite.reachable_of_argument hargument

theorem Offsets.reachable
    (h : s.Offsets x) :
    x.frame.reachable = true := by
  obtain ⟨_, _, _, _, _, hargument, _⟩ := h
  exact CallSite.reachable_of_argument hargument

/-- In dead code only a store is waited for. -/
theorem Awaits.stored_of_unreachable
    (h : t.Awaits x)
    (hdead : x.frame.reachable = false) :
    t.stage = .assignment ∧ ∃ name, x.Stores name := by
  have hnot : ¬ x.frame.reachable = true := by simp [hdead]
  unfold Awaits at h
  cases hstage : t.stage <;> simp only [hstage] at h
  · exact absurd h.reachable hnot
  · exact ⟨rfl, h⟩
  · obtain ⟨_, _, hadds⟩ := h
    exact absurd hadds.reachable hnot
  · exact absurd h.reachable hnot

/-- The observer stays as it is; it puts nothing in and keeps nothing out. -/
structure Ignores
    (t : Repositioner)
    (x : Sight) : Prop where
  state : (t.shown x).state = t
  emission : ∀ e, (t.shown x).outcome = .ok e → e = x.seen

/-- What is not waited for is ignored. -/
theorem ignores_of_not_awaits
    (h : ¬ t.Awaits x) :
    t.Ignores x := by
  have hstep := t.observe_step x
  generalize hstate : (t.shown x).state = after at hstep
  generalize houtcome : (t.shown x).outcome = outcome at hstep
  cases hstep with
  | failed idle =>
      refine ⟨hstate, fun e hok => ?_⟩
      rw [houtcome] at hok
      cases hok
  | kept idle =>
      refine ⟨hstate, fun e hok => ?_⟩
      rw [houtcome] at hok
      cases hok
      rfl
  | built stage event =>
      exact absurd (by rwa [Awaits, stage]) h
  | @stored name stage event =>
      exact absurd (by rw [Awaits, stage]; exact ⟨name, event⟩) h
  | @added field stage known event =>
      exact absurd (by rw [Awaits, stage]; exact ⟨field, known, event⟩) h
  | offset stage event =>
      exact absurd (by rwa [Awaits, stage]) h

/-- A store is taken for the one of the component whatever the frame is. -/
theorem shown_stores
    {name : String}
    (hstage : t.stage = .assignment)
    (hstores : x.Stores name) :
    t.shown x = ⟨{ t with stage := .addition, field := some name }, [], .ok x.seen⟩ := by
  obtain ⟨owner, descriptor, hrecord⟩ := hstores
  rw [shown, hrecord]
  simp only [observe, hstage, if_true]

/-- The records before a place of a run have led to the frame that is shown there. -/
theorem frame_of_getElem_sights
    {m : Machine}
    {records : List Record}
    {i : Nat}
    (h : (sights m records)[i]? = some x) :
    x.frame = (m.after (records.take i)).frame := by
  induction records generalizing m i with
  | nil =>
      cases h
  | cons r rest ih =>
      cases i with
      | zero =>
          cases h
          rfl
      | succ i =>
          exact ih h

/-- A place that is shown with a reachable frame is not in dead code. -/
theorem not_flowEnded_take
    {m : Machine}
    {records : List Record}
    (hsucceeds : m.Succeeds records)
    {i : Nat}
    (hx : (sights m records)[i]? = some x)
    (hreachable : x.frame.reachable = true) :
    ¬ FlowEnded (records.take i) := by
  intro hended
  rw [← List.take_append_drop i records, Machine.succeeds_append] at hsucceeds
  have hdead := (Machine.after_reachable_eq_false_iff hsucceeds.1).2 (.inl hended)
  rw [← frame_of_getElem_sights hx, hreachable] at hdead
  cases hdead

/-- In a run the component is built, added and positioned outside of dead code. -/
theorem Moved.not_flowEnded
    {m : Machine}
    {records : List Record}
    {i j k l : Nat}
    {name : String}
    (h : s.Moved (sights m records) i j k l name)
    (hsucceeds : m.Succeeds records) :
    ¬ FlowEnded (records.take i) ∧ ¬ FlowEnded (records.take k) ∧
      ¬ FlowEnded (records.take l) := by
  obtain ⟨x, hx, hbuilds⟩ := h.built.holds
  obtain ⟨y, hy, hadds⟩ := h.added.holds
  obtain ⟨z, hz, hoffsets⟩ := h.offset.holds
  exact ⟨not_flowEnded_take hsucceeds hx hbuilds.reachable,
    not_flowEnded_take hsucceeds hy hadds.reachable,
    not_flowEnded_take hsucceeds hz hoffsets.reachable⟩

theorem not_ignores_stores
    {name : String}
    (hstage : t.stage = .assignment)
    (hstores : x.Stores name) :
    ¬ t.Ignores x := by
  intro hignores
  have hstate := congrArg Repositioner.stage hignores.state
  rw [shown_stores hstage hstores, hstage] at hstate
  cases hstate

/-- Dead code is ignored but for a store in the stage of the assignment. -/
theorem ignores_unreachable_iff
    (hdead : x.frame.reachable = false) :
    t.Ignores x ↔ ¬ (t.stage = .assignment ∧ ∃ name, x.Stores name) := by
  constructor
  · rintro hignores ⟨hstage, name, hstores⟩
    exact not_ignores_stores hstage hstores hignores
  · intro hother
    exact ignores_of_not_awaits fun hawaits => hother (hawaits.stored_of_unreachable hdead)

/--
Where control cannot be, the observer ignores every record but a store in the stage of the
assignment; of that one it takes the field and goes on to the addition. So in a run
nothing else counts that stands between an instruction that ends the flow and the next
frame: the component is built, added and positioned elsewhere.
-/
theorem dead_code_stores_only
    (t : Repositioner)
    {m : Machine}
    {records : List Record}
    (hsucceeds : m.Succeeds records) :
    (∀ x : Sight, x.frame.reachable = false →
      (t.Ignores x ↔ ¬ (t.stage = .assignment ∧ ∃ name, x.Stores name)) ∧
        ∀ name, t.stage = .assignment → x.Stores name →
          t.shown x = ⟨{ t with stage := .addition, field := some name }, [], .ok x.seen⟩) ∧
      (FlowEnded records →
        ∀ (r : Record) (e : Emission),
          t.Ignores ⟨r, (m.after records).frame, e⟩ ↔
            ¬ (t.stage = .assignment ∧
              ∃ owner name descriptor, r = .field .putfield owner name descriptor)) ∧
      ∀ i j k l name, t.Moved (sights m records) i j k l name →
        ¬ FlowEnded (records.take i) ∧ ¬ FlowEnded (records.take k) ∧
          ¬ FlowEnded (records.take l) := by
  refine ⟨?_, ?_, fun i j k l name hmoved => hmoved.not_flowEnded hsucceeds⟩
  · intro x hdead
    exact ⟨ignores_unreachable_iff hdead, fun name => shown_stores⟩
  · intro hended r e
    have hdead := (Machine.after_reachable_eq_false_iff hsucceeds).2 (.inl hended)
    rw [ignores_unreachable_iff hdead]
    constructor
    · rintro hother ⟨hstage, owner, name, descriptor, hr⟩
      exact hother ⟨hstage, name, owner, descriptor, hr⟩
    · rintro hother ⟨hstage, name, owner, descriptor, hr⟩
      exact hother ⟨hstage, owner, name, descriptor, hr⟩

/-- A button is built, and the method returns. -/
def abandoning : List Record :=
  building.dropLast ++ [.bare .returnVoid]

theorem abandoning_ended :
    FlowEnded abandoning :=
  ⟨building.dropLast, _, [], rfl, ⟨.returnVoid, by decide, rfl⟩, by simp⟩

/-- The machine at the start of a static method without parameters. -/
def started : Machine :=
  ⟨Frame.empty none, "A", true, [], [], 0⟩

theorem abandoning_succeeds :
    started.Succeeds abandoning := by
  decide +kernel

theorem abandoning_unreachable :
    (started.after abandoning).frame.reachable = false :=
  (Machine.after_reachable_eq_false_iff abandoning_succeeds).2 (.inl abandoning_ended)

theorem after_abandoning :
    (standard "a/Button" "a/Align").after (sights started abandoning) =
      { standard "a/Button" "a/Align" with stage := .assignment } := by
  decide +kernel

/-- After the return a call of `add` is ignored, and a whole run moves the button. -/
theorem dead_code_stores_only_button :
    let s := standard "a/Button" "a/Align"
    let m := started
    let records := building ++ adding ++ positioning
    (s.after (sights m abandoning)).Ignores
        ⟨.method .invokestatic "a/Panel" "add" "(La/Button;)V" false,
          (m.after abandoning).frame, .none⟩ ∧
      (s.after (sights m abandoning)).shown
          ⟨.field .putfield "A" "other" "La/Button;", (m.after abandoning).frame, .none⟩ =
        ⟨{ s with stage := .addition, field := some "other" }, [], .ok .none⟩ ∧
      ∃ i j k l name, s.Moved (sights m records) i j k l name ∧
        ¬ FlowEnded (records.take i) ∧ ¬ FlowEnded (records.take k) ∧
          ¬ FlowEnded (records.take l) := by
  intro s m records
  have hassigned : s.after (sights m abandoning) = { s with stage := .assignment } :=
    after_abandoning
  obtain ⟨hstep, hrun, _⟩ :=
    dead_code_stores_only (s.after (sights m abandoning)) abandoning_succeeds
  refine ⟨(hrun abandoning_ended _ _).2 ?_, ?_, ?_⟩
  · rintro ⟨_, _, _, _, hrecord⟩
    cases hrecord
  · have hstores : Sight.Stores
        ⟨.field .putfield "A" "other" "La/Button;", (m.after abandoning).frame, .none⟩ "other" :=
      ⟨"A", "La/Button;", rfl⟩
    rw [(hstep _ abandoning_unreachable).2 "other" (by rw [hassigned]) hstores, hassigned]
  · have hfresh : s.Fresh := ⟨rfl, rfl⟩
    have hall : m.Succeeds records := by decide +kernel
    have hdone : (s.after (sights m records)).stage = .done := by decide +kernel
    obtain ⟨i, j, k, l, name, hmoved⟩ := (after_stands hfresh _).moved_of_done hdone
    exact ⟨i, j, k, l, name, hmoved, (dead_code_stores_only s hall).2.2 i j k l name hmoved⟩

/--
A button is built, the method returns, and a store after it, in dead code, is taken for the
one of the button.
-/
theorem dead_store_advances :
    let s := standard "a/Button" "a/Align"
    let m := started
    let t := s.after (sights m abandoning)
    let x : Sight :=
      ⟨.field .putfield "A" "other" "La/Button;", (m.after abandoning).frame, .none⟩
    Machine.start ⟨"A", "run", "()V", true⟩ .standard = .ok m ∧ m.Succeeds abandoning ∧
      FlowEnded abandoning ∧ x.frame.reachable = false ∧
      t.stage = .assignment ∧ t.field = none ∧
      (t.shown x).state.stage = .addition ∧ (t.shown x).state.field = some "other" ∧
      ¬ t.Ignores x := by
  intro s m t x
  have hassigned : t = { s with stage := .assignment } := after_abandoning
  have hstage : t.stage = .assignment := by rw [hassigned]
  have hstores : x.Stores "other" := ⟨"A", "La/Button;", rfl⟩
  have hshown := shown_stores hstage hstores
  refine ⟨Machine.start_static "A" "run" .standard, abandoning_succeeds, abandoning_ended,
    abandoning_unreachable, hstage, ?_, ?_, ?_, not_ignores_stores hstage hstores⟩
  · rw [hassigned]
    rfl
  · rw [hshown]
  · rw [hshown]

end Repositioner
end SlotFlow
