import SlotFlow.Proofs.Observation

/-!
# One record for the observer that moves a component

In each stage but the last the observer waits for one kind of record. At any other record
it stays as it is, and so it does where it fails; at the one that it waits for it goes to
the next stage. The correction is put in with the last step.

Main definitions:

* `Repositioner.Builds`, `Sight.Stores`, `Sight.Adds`, `Repositioner.Offsets`: the kinds of
  records that are waited for;
* `Repositioner.Awaits`: the record is the one that is waited for;
* `Repositioner.Step`: what the observer does with a record.

Main statement:

* `Repositioner.observe_step`: the observer does so.
-/

namespace SlotFlow

namespace CallSite

/-- Types match a pattern if each is the wanted one, where one is wanted. -/
theorem typesMatch_iff
    {types : List FieldType}
    {pattern : List (Option FieldType)} :
    typesMatch types pattern = true ↔
      List.Forall₂ (fun type wanted => ∀ t ∈ wanted, t = type) types pattern := by
  induction types generalizing pattern with
  | nil =>
      cases pattern <;> simp [typesMatch]
  | cons type types ih =>
      rcases pattern with _ | ⟨_ | wanted, pattern⟩ <;> simp [typesMatch, ih]

theorem head_literals
    (f : Frame)
    (descriptor : String) :
    (literals? f descriptor).bind List.head? =
      (argument? f descriptor 0).map Value.literal := by
  rw [literals?, argument?]
  cases arguments? f descriptor with
  | none =>
      rfl
  | some cells =>
      cases cells <;> rfl

theorem head_sources
    (f : Frame)
    (descriptor : String) :
    ((sources? f descriptor).bind List.head?).join =
      (argument? f descriptor 0).bind Value.provenance := by
  rw [sources?, argument?]
  cases arguments? f descriptor with
  | none =>
      rfl
  | some cells =>
      cases cells <;> rfl

end CallSite

namespace Sight

variable {x : Sight}

/-- The record is a call by a name, with the descriptor of a method. -/
structure Calls
    (x : Sight)
    (name descriptor : String)
    (d : MethodDescriptor) : Prop where
  record : ∃ op owner interface, x.record = .method op owner name descriptor interface
  parses : MethodDescriptor.parse? descriptor = some d

/-- The record stores a value in a field of an object. -/
def Stores
    (x : Sight)
    (name : String) :
    Prop :=
  ∃ owner descriptor, x.record = .field .putfield owner name descriptor

/-- The record is a call that adds what was loaded from a field. -/
def Adds
    (x : Sight)
    (field : String) :
    Prop :=
  ∃ descriptor d v, x.Calls "add" descriptor d ∧
    CallSite.argument? x.frame descriptor 0 = some v ∧ v.provenance = some field

theorem Calls.unique
    {name descriptor name' descriptor' : String}
    {d d' : MethodDescriptor}
    (h : x.Calls name descriptor d)
    (h' : x.Calls name' descriptor' d') :
    name' = name ∧ descriptor' = descriptor ∧ d' = d := by
  obtain ⟨⟨op, owner, interface, hrecord⟩, hparse⟩ := h
  obtain ⟨⟨op', owner', interface', hrecord'⟩, hparse'⟩ := h'
  rw [hrecord] at hrecord'
  cases hrecord'
  rw [hparse] at hparse'
  cases hparse'
  exact ⟨rfl, rfl, rfl⟩

end Sight

namespace Repositioner

variable {s t t' : Repositioner} {x : Sight}

/-- The record is the call of the factory, with the label. -/
def Builds
    (s : Repositioner)
    (x : Sight) :
    Prop :=
  ∃ name descriptor d a b v, x.Calls name descriptor d ∧
    d.result = some (.object s.componentType) ∧
    d.parameters =
      [.object stringClass, .object stringClass, .object s.alignmentType, a, b] ∧
    CallSite.argument? x.frame descriptor 0 = some v ∧ v.literal = .string s.label

/-- The record is the call that positions the component at the offset to be replaced. -/
def Offsets
    (s : Repositioner)
    (x : Sight) :
    Prop :=
  ∃ descriptor d v, x.Calls s.positioningMethod descriptor d ∧ d.parameters = [.float] ∧
    CallSite.argument? x.frame descriptor 0 = some v ∧ v.literal = .float s.offset

/-- The record is the one that the observer waits for. -/
def Awaits
    (t : Repositioner)
    (x : Sight) :
    Prop :=
  match t.stage with
  | .construction => t.Builds x
  | .assignment => ∃ name, x.Stores name
  | .addition => ∃ field, t.field = some field ∧ x.Adds field
  | .positioning => t.Offsets x
  | .done => False

/-- The observer is shown a record. -/
def shown
    (t : Repositioner)
    (x : Sight) :
    Reaction Repositioner :=
  t.observe x.record x.frame x.seen

section Events

variable {name descriptor : String} {d : MethodDescriptor}

theorem isFactoryCall_iff
    (h : x.Calls name descriptor d) :
    s.isFactoryCall d x.frame descriptor = true ↔ s.Builds x := by
  rw [isFactoryCall, CallSite.head_literals]
  simp only [Bool.and_eq_true, decide_eq_true_eq, CallSite.typesMatch_iff, factoryPattern,
    List.forall₂_cons_right_iff, List.forall₂_nil_right_iff, Option.map_eq_some_iff]
  constructor
  · rintro ⟨⟨hresult, hparameters⟩, v, hargument, hliteral⟩
    obtain ⟨_, _, h₁, ⟨_, _, h₂, ⟨_, _, h₃, ⟨a, _, _, ⟨b, _, _, rfl, rfl⟩, rfl⟩, rfl⟩, rfl⟩,
      hparameters⟩ := hparameters
    cases h₁ _ rfl
    cases h₂ _ rfl
    cases h₃ _ rfl
    exact ⟨name, descriptor, d, a, b, v, h, hresult, hparameters, hargument, hliteral⟩
  · rintro ⟨_, _, _, a, b, v, h', hresult, hparameters, hargument, hliteral⟩
    obtain ⟨rfl, rfl, rfl⟩ := h.unique h'
    refine ⟨⟨hresult, ?_⟩, v, hargument, hliteral⟩
    simp [hparameters]

theorem isAddition_iff
    (h : x.Calls name descriptor d) :
    s.isAddition name x.frame descriptor = true ↔
      ∃ field, s.field = some field ∧ x.Adds field := by
  simp only [isAddition, CallSite.head_sources, Bool.and_eq_true, decide_eq_true_eq,
    Option.isSome_iff_exists]
  constructor
  · rintro ⟨⟨rfl, field, hsource⟩, hfield⟩
    rw [hsource] at hfield
    obtain ⟨v, hargument, hprovenance⟩ := Option.bind_eq_some_iff.1 hsource
    exact ⟨field, hfield.symm, descriptor, d, v, h, hargument, hprovenance⟩
  · rintro ⟨field, hfield, _, _, v, h', hargument, hprovenance⟩
    obtain ⟨rfl, rfl, rfl⟩ := h.unique h'
    have hsource : (CallSite.argument? x.frame _ 0).bind Value.provenance = some field :=
      Option.bind_eq_some_iff.2 ⟨v, hargument, hprovenance⟩
    exact ⟨⟨rfl, field, hsource⟩, hsource.trans hfield.symm⟩

theorem isPositioning_iff
    (h : x.Calls name descriptor d) :
    s.isPositioning name d x.frame descriptor = true ↔ s.Offsets x := by
  simp only [isPositioning, Bool.and_eq_true, decide_eq_true_eq, Option.map_eq_some_iff]
  constructor
  · rintro ⟨⟨rfl, htypes⟩, v, hargument, hliteral⟩
    exact ⟨descriptor, d, v, h, eq_float_of_typesMatch htypes, hargument, hliteral⟩
  · rintro ⟨_, _, v, h', hparameters, hargument, hliteral⟩
    obtain ⟨hname, rfl, rfl⟩ := h.unique h'
    refine ⟨⟨hname.symm, ?_⟩, v, hargument, hliteral⟩
    rw [hparameters]
    rfl

/-- Only calls and stores are waited for. -/
theorem Awaits.calls_or_stores
    (h : t.Awaits x) :
    (∃ name descriptor d, x.Calls name descriptor d) ∨
      (t.stage = .assignment ∧ ∃ name, x.Stores name) := by
  unfold Awaits at h
  cases hstage : t.stage <;> simp only [hstage] at h
  · obtain ⟨name, descriptor, d, _, _, _, hcalls, _⟩ := h
    exact .inl ⟨name, descriptor, d, hcalls⟩
  · exact .inr ⟨rfl, h⟩
  · obtain ⟨_, _, descriptor, d, _, hcalls, _⟩ := h
    exact .inl ⟨"add", descriptor, d, hcalls⟩
  · obtain ⟨descriptor, d, _, hcalls, _⟩ := h
    exact .inl ⟨t.positioningMethod, descriptor, d, hcalls⟩

end Events

/-- What the observer does with a record. -/
inductive Step
    (t : Repositioner)
    (x : Sight) :
    Repositioner → Except Fault Emission → Prop
  | failed
      {fault : Fault}
      (idle : ¬ t.Awaits x) :
      Step t x t (.error fault)
  | kept
      (idle : ¬ t.Awaits x) :
      Step t x t (.ok x.seen)
  | built
      (stage : t.stage = .construction)
      (event : t.Builds x) :
      Step t x { t with stage := .assignment } (.ok x.seen)
  | stored
      {name : String}
      (stage : t.stage = .assignment)
      (event : x.Stores name) :
      Step t x { t with stage := .addition, field := some name } (.ok x.seen)
  | added
      {field : String}
      (stage : t.stage = .addition)
      (known : t.field = some field)
      (event : x.Adds field) :
      Step t x { t with stage := .positioning } (.ok x.seen)
  | offset
      (stage : t.stage = .positioning)
      (event : t.Offsets x) :
      Step t x { t with stage := .done } (.ok (x.seen.emit t.correction))

/-- The observer is shown a call. -/
theorem observeCall_step
    {name descriptor : String}
    {d : MethodDescriptor}
    (t : Repositioner)
    (h : x.Calls name descriptor d) :
    Step t x (t.observeCall name descriptor x.frame x.seen).state
      (t.observeCall name descriptor x.frame x.seen).outcome := by
  rw [observeCall, h.parses]
  cases hstage : t.stage with
  | construction =>
      by_cases hbuilds : t.Builds x
      · simp only [(isFactoryCall_iff h).2 hbuilds, if_true]
        exact .built hstage hbuilds
      · simp only [mt (isFactoryCall_iff h).1 hbuilds]
        refine .kept ?_
        rwa [Awaits, hstage]
  | assignment =>
      refine .kept ?_
      rw [Awaits, hstage]
      obtain ⟨⟨_, _, _, hrecord⟩, _⟩ := h
      rintro ⟨_, _, _, hstores⟩
      rw [hrecord] at hstores
      cases hstores
  | addition =>
      by_cases hadds : ∃ field, t.field = some field ∧ x.Adds field
      · simp only [(isAddition_iff h).2 hadds, if_true]
        obtain ⟨field, hfield, hadds⟩ := hadds
        exact .added hstage hfield hadds
      · simp only [mt (isAddition_iff h).1 hadds]
        refine .kept ?_
        rwa [Awaits, hstage]
  | positioning =>
      by_cases hoffsets : t.Offsets x
      · simp only [(isPositioning_iff h).2 hoffsets, if_true]
        exact .offset hstage hoffsets
      · simp only [mt (isPositioning_iff h).1 hoffsets]
        refine .kept ?_
        rwa [Awaits, hstage]
  | done =>
      refine .kept ?_
      rw [Awaits, hstage]
      exact id

/-- The observer is shown a record. -/
theorem observe_step
    (t : Repositioner)
    (x : Sight) :
    Step t x (t.shown x).state (t.shown x).outcome := by
  obtain ⟨r, f, e⟩ := x
  rw [shown]
  cases r with
  | method op owner name descriptor interface =>
      cases hparse : MethodDescriptor.parse? descriptor with
      | some d =>
          exact t.observeCall_step ⟨⟨op, owner, interface, rfl⟩, hparse⟩
      | none =>
          -- What has no descriptor of a method is none of the calls that are waited for.
          rw [observe, observeCall, hparse]
          refine .failed fun hawaits => ?_
          rcases hawaits.calls_or_stores with ⟨_, _, _, ⟨_, _, _, hcall⟩, hparses⟩ | ⟨_, h⟩
          · cases hcall
            rw [hparse] at hparses
            cases hparses
          · obtain ⟨_, _, _, hstores⟩ := h
            cases hstores
  | field op owner name descriptor =>
      by_cases hstores : op = .putfield ∧ t.stage = .assignment
      · obtain ⟨rfl, hstage⟩ := hstores
        simp only [observe, hstage, if_true]
        exact .stored hstage ⟨owner, descriptor, rfl⟩
      · have hkept : t.observe (.field op owner name descriptor) f e = ⟨t, [], .ok e⟩ := by
          cases op <;> simp only [observe]
          rw [if_neg fun hstage => hstores ⟨rfl, hstage⟩]
        rw [hkept]
        refine .kept fun hawaits => hstores ?_
        rcases hawaits.calls_or_stores with ⟨_, _, _, ⟨_, _, _, hcall⟩, _⟩ | ⟨hstage, h⟩
        · cases hcall
        · obtain ⟨_, _, _, hput⟩ := h
          cases hput
          exact ⟨rfl, hstage⟩
  | _ =>
      refine .kept fun hawaits => ?_
      rcases hawaits.calls_or_stores with ⟨_, _, _, ⟨_, _, _, hcall⟩, _⟩ | ⟨_, _, _, _, h⟩
      · cases hcall
      · cases h

theorem Step.emission
    {outcome : Except Fault Emission}
    (h : Step t x t' outcome)
    {e : Emission}
    (hok : outcome = .ok e) :
    (e = x.seen ∧ ¬ (t.stage = .positioning ∧ t'.stage = .done)) ∨
      (e = x.seen.emit t.correction ∧ t.stage = .positioning ∧ t'.stage = .done) := by
  cases h with
  | failed =>
      cases hok
  | kept =>
      cases hok
      refine .inl ⟨rfl, ?_⟩
      rintro ⟨hpositioning, hdone⟩
      rw [hpositioning] at hdone
      cases hdone
  | built | stored | added =>
      cases hok
      refine .inl ⟨rfl, ?_⟩
      rintro ⟨_, hdone⟩
      cases hdone
  | offset stage =>
      cases hok
      exact .inr ⟨rfl, stage, rfl⟩

end Repositioner
end SlotFlow
