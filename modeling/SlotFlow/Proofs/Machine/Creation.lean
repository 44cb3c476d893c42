import Mathlib.Data.List.Induction
import SlotFlow.Proofs.Machine.Execution
import SlotFlow.Proofs.Machine.Performed

/-!
# Where objects are created

The labels right before an instruction are the pending ones. A `new` that is executed
records its type for each of them, or for a site with a number of its own if there is none;
it does so even if there is no room for the object. What a site has recorded last stays.

Main definitions:

* `EndsWithLabel`: records with a label that no instruction has used up;
* `Machine.CreatesAt`: the sites of a `new` that comes after records;
* `Machine.LastCreated`: the type that the last `new` of a site has;
* `OnlyFrame`: steps that change the frame, and nothing else.

Main statements:

* `mem_pending_after`: the pending labels are told by the records;
* `lookup_created_after`: so are the types that sites have recorded.
-/

namespace SlotFlow

/-- The label stands in the records, and no instruction that passes the checks after it. -/
def EndsWithLabel
    (records : List Record)
    (l : Label) :
    Prop :=
  ∃ before later, records = before ++ .label l :: later ∧
    ∀ x ∈ later, ∀ op, ¬ x.Accepted op

theorem not_endsWithLabel_nil
    (l : Label) :
    ¬ EndsWithLabel [] l := by
  rintro ⟨before, later, hsplit, _⟩
  simp at hsplit

theorem endsWithLabel_concat
    {records : List Record}
    {r : Record}
    {l : Label} :
    EndsWithLabel (records ++ [r]) l ↔
      r = .label l ∨ (EndsWithLabel records l ∧ ∀ op, ¬ r.Accepted op) := by
  constructor
  · rintro ⟨before, later, hsplit, hlater⟩
    rcases concat_eq_append_cons_iff.1 hsplit with ⟨rfl, rfl, rfl⟩ | ⟨later, rfl, rfl⟩
    · exact .inl rfl
    · simp only [List.forall_mem_append, List.forall_mem_singleton] at hlater
      exact .inr ⟨⟨before, later, rfl, hlater.1⟩, hlater.2⟩
  · rintro (rfl | ⟨⟨before, later, rfl, hlater⟩, hr⟩)
    · exact ⟨records, [], rfl, by simp⟩
    · refine ⟨before, later ++ [r], by simp, ?_⟩
      simp only [List.forall_mem_append, List.forall_mem_singleton]
      exact ⟨hlater, hr⟩

namespace Machine

variable {m : Machine} {records : List Record} {r : Record} {type : String}
  {site : CreationSite}

section OnlyFrame

variable {α β : Type}

/-- A step that changes nothing but the frame. -/
def OnlyFrame
    (act : MachineM α) :
    Prop :=
  ∀ m, ∃ f, (act m).2 = m.withFrame f

theorem OnlyFrame.bind
    {act : MachineM α}
    {next : α → MachineM β}
    (h : OnlyFrame act)
    (hnext : ∀ a, OnlyFrame (next a)) :
    OnlyFrame (act >>= next) := by
  intro m
  obtain ⟨f, hf⟩ := h m
  rw [run_bind]
  rcases hact : act m with ⟨e | a, t⟩
  · rw [hact] at hf
    exact ⟨f, hf⟩
  · rw [hact] at hf
    cases hf
    obtain ⟨g, hg⟩ := hnext a (m.withFrame f)
    exact ⟨g, hg⟩

theorem onlyFrame_pure
    (a : α) :
    OnlyFrame (pure a) :=
  fun m => ⟨m.frame, rfl⟩

theorem onFrame_onlyFrame
    (act : FrameM α) :
    OnlyFrame (onFrame act) :=
  fun m => ⟨(act m.frame).2, rfl⟩

theorem popReceiver_onlyFrame
    (receiver : Receiver) :
    OnlyFrame (popReceiver receiver) := by
  cases receiver with
  | none =>
      exact onlyFrame_pure ()
  | object =>
      exact (onFrame_onlyFrame _).bind fun _ => onlyFrame_pure ()
  | constructed owner =>
      refine (onFrame_onlyFrame _).bind fun v m => ?_
      rw [completeConstruction_eq]
      exact ⟨_, rfl⟩

/-- All effects but the creation of an object change nothing but the frame. -/
theorem perform_onlyFrame
    {effect : Effect}
    (h : ∀ type, effect ≠ .create type) :
    OnlyFrame (perform effect) := by
  cases effect with
  | nothing =>
      exact onlyFrame_pure ()
  | increment index delta =>
      exact fun m => onFrame_onlyFrame _ m
  | arithmetic op signature =>
      exact fun m => onFrame_onlyFrame _ m
  | call receiver descriptor =>
      refine (onFrame_onlyFrame _).bind fun _ => ?_
      exact (popReceiver_onlyFrame receiver).bind fun _ => onFrame_onlyFrame _
  | create type =>
      exact absurd rfl (h type)
  | refuse fault =>
      exact fun m => ⟨m.frame, rfl⟩
  | _ =>
      exact onFrame_onlyFrame _

end OnlyFrame

/-- The sites of an object that is created next. -/
def newSites
    (m : Machine) :
    List CreationSite :=
  match m.pending with
  | [] => [.synthetic (m.lastSite + 1)]
  | l :: rest => (l :: rest).map .label

/-- Whether or not there is room for the object, its type is recorded for its sites. -/
theorem create_created
    (m : Machine)
    (type : String) :
    (create type m).2.created = m.newSites.map (fun site => (site, type)) ++ m.created := by
  unfold create newSites
  cases m.pending with
  | nil =>
      rfl
  | cons l rest =>
      simp only [List.map_map]
      rfl

section Performed

variable {n next : Machine} {effect : Effect} {result : Except Fault Unit}

theorem created_of_performed
    (hperform : perform effect n = (result, next))
    (hcreate : ∀ type, effect ≠ .create type) :
    next.created = n.created := by
  obtain ⟨f, hf⟩ := perform_onlyFrame hcreate n
  rw [hperform] at hf
  cases hf
  rfl

theorem created_of_performed_create
    (hperform : perform (.create type) n = (result, next)) :
    next.created = n.newSites.map (fun site => (site, type)) ++ n.created := by
  have hcreated := create_created n type
  rw [perform] at hperform
  rwa [hperform] at hcreated

theorem owner_of_performed
    (hperform : perform effect n = (result, next)) :
    next.owner = n.owner := by
  by_cases hcreate : ∃ type, effect = .create type
  · obtain ⟨type, rfl⟩ := hcreate
    rw [perform] at hperform
    unfold create at hperform
    split at hperform <;> cases hperform <;> rfl
  · obtain ⟨f, hf⟩ := perform_onlyFrame (fun type h => hcreate ⟨type, h⟩) n
    rw [hperform] at hf
    cases hf
    rfl

end Performed

theorem lookup_map_append
    (sites : List CreationSite)
    (type : String)
    (created : List (CreationSite × String))
    (site : CreationSite) :
    (sites.map (fun site => (site, type)) ++ created).lookup site =
      if site ∈ sites then some type else created.lookup site := by
  induction sites with
  | nil =>
      simp
  | cons first rest ih =>
      rw [List.map_cons, List.cons_append, List.lookup_cons]
      by_cases hsite : site = first
      · simp [hsite]
      · have hne : (site == first) = false := by simp [hsite]
        rw [hne, ih]
        simp [hsite]

theorem effect_eq_create
    (h : r.effect = .create type) :
    r = .typed .newObject type := by
  cases r with
  | bare op =>
      cases op <;> cases h
  | integer op operand =>
      change integerEffect op operand = _ at h
      unfold integerEffect at h
      split at h
      · split at h <;> cases h
      · cases h
  | slot op index =>
      change slotEffect op index.toNat = _ at h
      unfold slotEffect at h
      split at h <;> cases h
  | typed op name =>
      change typedEffect op name = _ at h
      unfold typedEffect at h
      split at h <;> cases h
      rfl
  | field op owner name descriptor =>
      change fieldEffect op name descriptor = _ at h
      unfold fieldEffect at h
      split at h <;> cases h
  | jump op target =>
      change jumpEffect op = _ at h
      unfold jumpEffect at h
      split at h <;> cases h
  | _ =>
      cases h

/-- A `new` that is executed records its type. -/
theorem created_execute_new
    (hreachable : m.frame.reachable = true)
    (type : String) :
    (execute (.typed .newObject type) m).2.created =
      m.newSites.map (fun site => (site, type)) ++ m.created := by
  have hexecution := execute_execution (.typed .newObject type) m
  generalize (execute (.typed .newObject type) m).1 = result at hexecution
  generalize (execute (.typed .newObject type) m).2 = next at hexecution
  cases hexecution with
  | refused opcode rejected fault =>
      cases opcode
      exact absurd ⟨rfl, rfl, rfl⟩ rejected
  | passed accepted unreachable =>
      rw [hreachable] at unreachable
      cases unreachable
  | failed accepted reachable performed | continued accepted reachable performed
  | ended accepted reachable performed =>
      have hcreated := created_of_performed_create performed
      exact hcreated

/-- Every other record, and a `new` in dead code, records nothing. -/
theorem created_execute_other
    (hr : ∀ type, r = .typed .newObject type → m.frame.reachable = false) :
    (execute r m).2.created = m.created := by
  have hexecution := execute_execution r m
  generalize (execute r m).1 = result at hexecution
  generalize (execute r m).2 = next at hexecution
  cases hexecution with
  | label | reset | frameRefused | refused | passed =>
      rfl
  | failed accepted reachable performed | continued accepted reachable performed
  | ended accepted reachable performed =>
      have hcreated := created_of_performed performed fun type heffect => by
        rw [hr type (effect_eq_create heffect)] at reachable
        cases reachable
      exact hcreated

theorem owner_execute
    (r : Record)
    (m : Machine) :
    (execute r m).2.owner = m.owner := by
  have hexecution := execute_execution r m
  generalize (execute r m).1 = result at hexecution
  generalize (execute r m).2 = next at hexecution
  cases hexecution with
  | label | reset | frameRefused | refused | passed =>
      rfl
  | failed accepted reachable performed | continued accepted reachable performed
  | ended accepted reachable performed =>
      have howner := owner_of_performed performed
      exact howner

/-- Labels are pending until an instruction comes that passes the checks. -/
theorem mem_pending_execute
    {l : Label} :
    l ∈ (execute r m).2.pending ↔ r = .label l ∨ (l ∈ m.pending ∧ ∀ op, ¬ r.Accepted op) := by
  have hexecution := execute_execution r m
  generalize (execute r m).1 = result at hexecution
  generalize (execute r m).2 = next at hexecution
  have hinstruction {op : Opcode} (haccepted : r.Accepted op) :
      l ∈ ([] : List Label) ↔
        r = .label l ∨ (l ∈ m.pending ∧ ∀ op, ¬ r.Accepted op) := by
    constructor
    · intro hl
      cases hl
    · rintro (rfl | ⟨_, hnone⟩)
      · cases haccepted.opcode
      · exact absurd haccepted (hnone op)
  cases hexecution with
  | label other =>
      have hnone : ∀ op, ¬ (Record.label other).Accepted op := Record.not_accepted_of_opcode rfl
      simp only [List.mem_append, List.mem_singleton, Record.label.injEq, hnone,
        not_false_eq_true, implies_true, and_true]
      rw [or_comm, eq_comm]
  | @reset f | @frameRefused f =>
      have hnone : ∀ op, ¬ (Record.frame f).Accepted op := Record.not_accepted_of_opcode rfl
      simp [hnone]
  | @refused _ op opcode rejected fault =>
      have hlabel : r ≠ .label l := by
        rintro rfl
        cases opcode
      have hnone (other : Opcode) : ¬ r.Accepted other := by
        intro haccepted
        have hop := haccepted.opcode
        rw [opcode] at hop
        cases hop
        exact rejected haccepted
      simp [hlabel, hnone]
  | passed accepted | failed accepted | continued accepted | ended accepted =>
      exact hinstruction accepted

/-- A method starts without labels and without objects that were created. -/
theorem start_eq_ok
    {method : Method}
    {settings : Settings}
    (h : start method settings = .ok m) :
    m.pending = [] ∧ m.created = [] ∧ m.owner = method.owner := by
  obtain ⟨f, _, rfl⟩ := exists_of_map_eq_ok h
  exact ⟨rfl, rfl, rfl⟩

theorem owner_after
    (m : Machine)
    (records : List Record) :
    (m.after records).owner = m.owner := by
  induction records using List.reverseRecOn with
  | nil =>
      rfl
  | append_singleton records r ih =>
      rw [after_concat, owner_execute, ih]

/-- The pending labels are the ones that records end with. -/
theorem mem_pending_after
    (hpending : m.pending = [])
    (records : List Record)
    (l : Label) :
    l ∈ (m.after records).pending ↔ EndsWithLabel records l := by
  induction records using List.reverseRecOn with
  | nil =>
      rw [after, hpending]
      exact iff_of_false List.not_mem_nil (not_endsWithLabel_nil l)
  | append_singleton records r ih =>
      rw [after_concat, mem_pending_execute, endsWithLabel_concat, ih]

/--
The sites that a `new` records for that comes after the records: where control can be, those
of the labels right before it, or one with a number of its own if there is none.
-/
inductive CreatesAt (m : Machine) (records : List Record) : CreationSite → Prop
  | labelled
      {l : Label}
      (reachable : (m.after records).frame.reachable = true)
      (label : EndsWithLabel records l) :
      CreatesAt m records (.label l)
  | numbered
      (reachable : (m.after records).frame.reachable = true)
      (unlabelled : ∀ l, ¬ EndsWithLabel records l) :
      CreatesAt m records (.synthetic ((m.after records).lastSite + 1))

theorem mem_newSites_iff :
    site ∈ m.newSites ↔
      (∃ l ∈ m.pending, site = .label l) ∨
        (m.pending = [] ∧ site = .synthetic (m.lastSite + 1)) := by
  unfold newSites
  cases m.pending with
  | nil =>
      simp
  | cons l rest =>
      simp [eq_comm]

theorem createsAt_iff
    (hpending : m.pending = []) :
    m.CreatesAt records site ↔
      (m.after records).frame.reachable = true ∧ site ∈ (m.after records).newSites := by
  have hlabels := mem_pending_after hpending records
  rw [mem_newSites_iff]
  constructor
  · rintro (⟨hreachable, hlabel⟩ | ⟨hreachable, hunlabelled⟩)
    · exact ⟨hreachable, .inl ⟨_, (hlabels _).2 hlabel, rfl⟩⟩
    · refine ⟨hreachable, .inr ⟨List.eq_nil_iff_forall_not_mem.2 fun l hl => ?_, rfl⟩⟩
      exact hunlabelled l ((hlabels l).1 hl)
  · rintro ⟨hreachable, ⟨l, hl, rfl⟩ | ⟨hnone, rfl⟩⟩
    · exact .labelled hreachable ((hlabels l).1 hl)
    · refine .numbered hreachable fun l hl => ?_
      have hmem := (hlabels l).2 hl
      rw [hnone] at hmem
      cases hmem

/-- The type of the last `new` among the records that has recorded one for the site. -/
def LastCreated
    (m : Machine)
    (records : List Record)
    (site : CreationSite)
    (type : String) :
    Prop :=
  ∃ before later, records = before ++ .typed .newObject type :: later ∧
    m.CreatesAt before site ∧
    ∀ middle other rest, later = middle ++ .typed .newObject other :: rest →
      ¬ m.CreatesAt (before ++ .typed .newObject type :: middle) site

theorem not_lastCreated_nil :
    ¬ m.LastCreated [] site type := by
  rintro ⟨before, later, hsplit, _⟩
  simp at hsplit

/-- The record is a `new` that records the type for the site. -/
def Creates
    (m : Machine)
    (records : List Record)
    (r : Record)
    (site : CreationSite)
    (type : String) :
    Prop :=
  r = .typed .newObject type ∧ m.CreatesAt records site

theorem lastCreated_concat :
    m.LastCreated (records ++ [r]) site type ↔
      m.Creates records r site type ∨
        (m.LastCreated records site type ∧ ∀ other, ¬ m.Creates records r site other) := by
  constructor
  · rintro ⟨before, later, hsplit, hcreates, hlast⟩
    rcases concat_eq_append_cons_iff.1 hsplit with ⟨rfl, rfl, rfl⟩ | ⟨later, rfl, rfl⟩
    · exact .inl ⟨rfl, hcreates⟩
    · refine .inr ⟨⟨before, later, rfl, hcreates, ?_⟩, ?_⟩
      · rintro middle other rest rfl
        exact hlast middle other (rest ++ [r]) (by simp)
      · rintro other ⟨rfl, hagain⟩
        exact hlast later other [] (by simp) hagain
  · rintro (⟨rfl, hcreates⟩ | ⟨⟨before, later, rfl, hcreates, hlast⟩, hnone⟩)
    · exact ⟨records, [], rfl, hcreates, fun _ _ _ hsplit => by simp at hsplit⟩
    · refine ⟨before, later ++ [r], by simp, hcreates, ?_⟩
      intro middle other rest hsplit hagain
      rcases concat_eq_append_cons_iff.1 hsplit with ⟨rfl, rfl, rfl⟩ | ⟨rest, rfl, rfl⟩
      · exact hnone other ⟨rfl, hagain⟩
      · exact hlast middle other rest rfl hagain

/-- What one record does to the type that is recorded for a site. -/
theorem lookup_created_execute
    (hpending : m.pending = []) :
    (execute r (m.after records)).2.created.lookup site = some type ↔
      m.Creates records r site type ∨
        ((m.after records).created.lookup site = some type ∧
          ∀ other, ¬ m.Creates records r site other) := by
  by_cases hcreates : ∃ other, m.Creates records r site other
  · obtain ⟨other, rfl, hat⟩ := hcreates
    obtain ⟨hreachable, hsite⟩ := (createsAt_iff hpending).1 hat
    rw [created_execute_new hreachable, lookup_map_append, if_pos hsite]
    constructor
    · intro htype
      cases htype
      exact .inl ⟨rfl, hat⟩
    · rintro (⟨hnew, _⟩ | ⟨_, hnone⟩)
      · cases hnew
        rfl
      · exact absurd ⟨rfl, hat⟩ (hnone other)
  · have hsame : (execute r (m.after records)).2.created.lookup site =
        (m.after records).created.lookup site := by
      by_cases hnew : ∃ other, r = .typed .newObject other ∧
          (m.after records).frame.reachable = true
      · obtain ⟨other, rfl, hreachable⟩ := hnew
        have hsite : site ∉ (m.after records).newSites := fun hsite =>
          hcreates ⟨other, rfl, (createsAt_iff hpending).2 ⟨hreachable, hsite⟩⟩
        rw [created_execute_new hreachable, lookup_map_append, if_neg hsite]
      · rw [created_execute_other fun other hr => ?_]
        rw [← Bool.not_eq_true]
        exact fun hreachable => hnew ⟨other, hr, hreachable⟩
    rw [hsame]
    have hnone (other : String) : ¬ m.Creates records r site other := fun h => hcreates ⟨other, h⟩
    simp only [hnone, false_or, not_false_eq_true, implies_true, and_true]

/-- The records tell which types are recorded. -/
theorem lookup_created_after
    (hpending : m.pending = [])
    (hcreated : m.created = [])
    (records : List Record)
    (site : CreationSite)
    (type : String) :
    (m.after records).created.lookup site = some type ↔ m.LastCreated records site type := by
  induction records using List.reverseRecOn generalizing type with
  | nil =>
      rw [after, hcreated]
      exact iff_of_false nofun not_lastCreated_nil
  | append_singleton records r ih =>
      rw [after_concat, lookup_created_execute hpending, lastCreated_concat, ih]

end Machine
end SlotFlow
