import SlotFlow.Analysis
import SlotFlow.Proofs.Fold
import SlotFlow.Proofs.Frame.Below

/-!
# Runs that know less

A machine that knows less of its values, and folds only if the other one does, goes
through the same steps as long as the other one reports no mismatch.

Main definitions:

* `Machine.Related`: machines whose frames are related and that else are alike;
* `Machine.Below`: machines of which less is known;
* `Machine.after`: the machine after records, whether or not they failed.

Main statements:

* `perform_simulates`, `execute_simulates`: one effect, one record;
* `knowing_less_is_safe`: one record on any machines, and whole analyses with folding
  turned off.
-/

namespace SlotFlow

theorem Fault.isMismatch_of_fold1
    {op : Opcode}
    {operand : Literal}
    {e : Fault}
    (h : Fold.fold1 op operand = .error e) :
    e.IsMismatch := by
  obtain ⟨found, rfl⟩ := Fold.fold1_error h
  exact ⟨_, _, _, rfl⟩

theorem Fault.isMismatch_of_fold2
    {op : Opcode}
    {left right : Literal}
    {e : Fault}
    (h : Fold.fold2 op left right = .error e) :
    e.IsMismatch := by
  obtain ⟨found, rfl⟩ := Fold.fold2_error h
  exact ⟨_, _, _, rfl⟩

namespace Machine

open SlotFlow.Frame (Tracks Returns ReturnsAll)

/-- Machines whose frames are related; the first folds only if the second does. -/
structure Related
    (R : Frame → Frame → Prop)
    (a b : Machine) : Prop where
  frame : R a.frame b.frame
  owner : a.owner = b.owner
  folding : a.folding = true → b.folding = true
  pending : a.pending = b.pending
  created : a.created = b.created
  lastSite : a.lastSite = b.lastSite

/-- The same machine, of whose values less may be known and which may not fold. -/
abbrev Below
    (a b : Machine) :
    Prop :=
  Related Frame.Below a b

theorem Related.withFrame
    {R S : Frame → Frame → Prop}
    {a b : Machine}
    {f g : Frame}
    (h : Related R a b)
    (hfg : S f g) :
    Related S { a with frame := f } { b with frame := g } :=
  ⟨hfg, h.owner, h.folding, h.pending, h.created, h.lastSite⟩

theorem Related.finished
    {R : Frame → Frame → Prop}
    {a b : Machine}
    (h : Related R a b) :
    Related R a.finished b.finished :=
  ⟨h.frame, h.owner, h.folding, rfl, h.created, h.lastSite⟩

section Simulation

variable {α β : Type} {R : Frame → Frame → Prop} {V : α → β → Prop} {exempt : Fault → Prop}

theorem onFrame_agree
    {a b : Machine}
    {act : FrameM α}
    {other : FrameM β}
    (h : Related R a b)
    (hact : Agree R V exempt (act a.frame) (other b.frame)) :
    Agree (Related R) V exempt (onFrame act a) (onFrame other b) := by
  unfold onFrame
  generalize act a.frame = x at hact
  generalize other b.frame = y at hact
  cases hact with
  | ok hfg hv =>
      exact .ok (h.withFrame hfg) hv
  | error hfg =>
      exact .error (h.withFrame hfg)
  | exempt he =>
      exact .exempt he

theorem onFrame_simulates
    {act : FrameM α}
    {other : FrameM β}
    (h : Simulates R V exempt act other) :
    Simulates (Related R) V exempt (onFrame act) (onFrame other) := by
  intro a b hab
  exact onFrame_agree hab (h _ _ hab.frame)

end Simulation

/-- A literal that is unknown or the same. -/
def LiteralBelow
    (l k : Literal) :
    Prop :=
  l = .unknown ∨ l = k

theorem folded_simulates
    {folding other : Bool}
    {x y : Except Fault Literal}
    (hfolding : folding = true → other = true)
    (hxy : x = .ok .unknown ∨ x = y)
    (hy : ∀ e, y = .error e → e.IsMismatch) :
    Simulates Tracks LiteralBelow Fault.IsMismatch (folded folding x) (folded other y) := by
  unfold folded
  cases other with
  | false =>
      have hoff : folding = false := by
        cases folding with
        | false => rfl
        | true => cases hfolding rfl
      rw [hoff]
      exact simulates_pure (Or.inl rfl)
  | true =>
      cases y with
      | error e =>
          intro f g _
          exact .exempt (hy e rfl)
      | ok k =>
          cases folding with
          | false =>
              exact simulates_pure (Or.inl rfl)
          | true =>
              rcases hxy with rfl | rfl
              · exact simulates_pure (Or.inl rfl)
              · exact simulates_pure (Or.inr rfl)

theorem arithmetic_simulates
    {folding other : Bool}
    (hfolding : folding = true → other = true)
    (op : Opcode)
    (signature : Signature) :
    Simulates Tracks (fun _ _ => True) Fault.IsMismatch (arithmetic folding op signature)
      (arithmetic other op signature) := by
  cases signature with
  | unary operand result =>
      apply (Frame.popWide_simulates operand.slots).bind
      intro v w hvw
      have hfold := Fold.fold1_of_unknown op hvw.below.literal
      apply (folded_simulates hfolding hfold fun e => Fault.isMismatch_of_fold1).bind
      intro l k hlk
      exact Frame.pushSized_simulates ⟨.ofLiteral _ hlk, .ofLiteral _ k⟩
  | binary left right result =>
      apply (Frame.popWide_simulates right.slots).bind
      intro r s hrs
      apply (Frame.popWide_simulates left.slots).bind
      intro v w hvw
      have hfold := Fold.fold2_of_unknown op hvw.below.literal hrs.below.literal
      apply (folded_simulates hfolding hfold fun e => Fault.isMismatch_of_fold2).bind
      intro l k hlk
      exact Frame.pushSized_simulates ⟨.ofLiteral _ hlk, .ofLiteral _ k⟩

theorem incremented_below
    {folding other : Bool}
    {v w : Value}
    (hfolding : folding = true → other = true)
    (hvw : v.Below w)
    (delta : Int32) :
    (incremented folding v delta).Below (incremented other w delta) := by
  have hcategory (on : Bool) (u : Value) :
      (incremented on u delta).category = .int ∧
        (incremented on u delta).provenance = none := by
    unfold incremented
    split <;> exact ⟨rfl, rfl⟩
  refine ⟨?_, ?_, ?_⟩
  · rw [(hcategory folding v).1, (hcategory other w).1]
  · rw [(hcategory folding v).2, (hcategory other w).2]
  · by_cases hknown : folding = true ∧ ∃ n, v.literal = .int n
    · obtain ⟨hon, n, hn⟩ := hknown
      right
      rcases hvw.literal with hliteral | hliteral
      · rw [hn] at hliteral
        cases hliteral
      · have hw : w.literal = .int n := by
          rw [← hliteral, hn]
        simp [incremented, hon, hfolding hon, hn, hw]
    · left
      unfold incremented
      split
      · rename_i n hn
        exact absurd ⟨rfl, n, hn⟩ hknown
      · rfl

/-- Nothing can be known of an object under construction. -/
theorem literal_of_constructed
    {m : Machine}
    {v w : Value}
    {callOwner type : String}
    (h : m.constructedType? v.category callOwner = some type)
    (hw : w.Built)
    (hcategory : w.category = v.category) :
    w.literal = .unknown := by
  apply hw.literal_eq_unknown
  intro kind hkind
  rw [hcategory] at hkind
  rw [← hkind] at h
  cases kind <;> first | rfl | cases h

theorem completeConstruction_simulates
    {v w : Value}
    (hvw : Returns v w)
    (callOwner : String) :
    Simulates (Related Tracks) (fun _ _ => True) Fault.IsMismatch
      (completeConstruction v callOwner) (completeConstruction w callOwner) := by
  intro a b hab
  have htype :
      a.constructedType? v.category callOwner = b.constructedType? w.category callOwner := by
    rw [hvw.below.category]
    unfold constructedType?
    rw [hab.owner, hab.created]
  unfold completeConstruction
  rw [htype]
  cases hb : b.constructedType? w.category callOwner with
  | none =>
      exact .ok hab trivial
  | some type =>
      -- Whole values are compared, but no literal belongs to a category that is replaced.
      have hw : w.literal = .unknown := literal_of_constructed hb hvw.built rfl
      have heq : v = w := hvw.below.eq_of_unknown hw
      subst heq
      have hold (u : Value) (hu : u.Built) (hcategory : u.category = v.category) :
          u.literal = .unknown :=
        literal_of_constructed hb hu hcategory
      have hbelow :=
        Frame.replaceAll_below (.unknownObject type) hab.frame.below hab.frame.built hold
      have hbuilt := Frame.built_stable.replaced v hab.frame.built (.unknownObject type)
      exact .ok (hab.withFrame ⟨hbelow, hab.frame.current, hbuilt⟩) trivial

theorem popReceiver_simulates
    (receiver : Receiver) :
    Simulates (Related Tracks) (fun _ _ => True) Fault.IsMismatch (popReceiver receiver)
      (popReceiver receiver) := by
  cases receiver with
  | none =>
      exact simulates_pure trivial
  | object =>
      apply (onFrame_simulates Frame.pop_simulates).bind
      intro _ _ _
      exact simulates_pure trivial
  | constructed owner =>
      apply (onFrame_simulates Frame.pop_simulates).bind
      intro v w hvw
      exact completeConstruction_simulates hvw owner

theorem create_simulates
    (type : String) :
    Simulates (Related Tracks) (fun _ _ => True) Fault.IsMismatch (create type)
      (create type) := by
  intro a b hab
  have hpush (site : CreationSite) :
      Agree Tracks (fun _ _ => True) Fault.IsMismatch
        (Frame.push (.uninitialized site) a.frame)
        (Frame.push (.uninitialized site) b.frame) :=
    Frame.push_simulates (Frame.returns_refl (.uninitialized site)) _ _ hab.frame
  unfold create
  rw [hab.pending]
  cases b.pending with
  | nil =>
      simp only [hab.lastSite, hab.created]
      apply onFrame_agree
      · exact ⟨hab.frame, hab.owner, hab.folding, rfl, rfl, rfl⟩
      · exact hpush _
  | cons l rest =>
      simp only [hab.created]
      apply onFrame_agree
      · exact ⟨hab.frame, hab.owner, hab.folding, rfl, rfl, hab.lastSite⟩
      · exact hpush _

/-- Carrying an effect out on machines of which one knows less. -/
theorem perform_simulates
    {effect : Effect}
    (h : effect.Brings Value.Built) :
    Simulates (Related Tracks) (fun _ _ => True) Fault.IsMismatch (perform effect)
      (perform effect) := by
  cases effect with
  | nothing =>
      exact simulates_pure trivial
  | push v =>
      exact onFrame_simulates (Frame.pushSized_simulates (Frame.returns_refl h))
  | discard slots =>
      exact onFrame_simulates (Frame.popMany_simulates slots)
  | replace slots v =>
      rw [perform]
      apply onFrame_simulates
      apply (Frame.popMany_simulates slots).bind
      intro _ _ _
      exact Frame.pushSized_simulates (Frame.returns_refl h)
  | load index wide =>
      rw [perform]
      apply onFrame_simulates
      apply (Frame.getLocal_simulates index).bind
      intro v w hvw
      apply (Frame.push_simulates hvw).bind
      intro _ _ _
      cases wide with
      | false =>
          exact simulates_pure trivial
      | true =>
          exact Frame.push_simulates (Frame.returns_refl .top)
  | store index slots =>
      rw [perform]
      apply onFrame_simulates
      apply (Frame.popWide_simulates slots).bind
      intro v w hvw
      exact Frame.setLocal_simulates index hvw
  | increment index delta =>
      intro a b hab
      rw [perform]
      apply onFrame_agree hab
      refine Simulates.bind (Frame.getLocal_simulates index) ?_ _ _ hab.frame
      intro v w hvw
      have hbelow := incremented_below hab.folding hvw.below delta
      exact Frame.setLocal_simulates index ⟨hbelow, (incremented_plain _ w delta).built⟩
  | element =>
      rw [perform]
      apply onFrame_simulates
      apply Frame.pop_simulates.bind
      intro _ _ _
      apply Frame.pop_simulates.bind
      intro v w hvw
      rw [hvw.below.category]
      exact Frame.push_simulates (Frame.returns_refl (.unknown _))
  | shuffle slots order =>
      rw [perform]
      apply onFrame_simulates
      apply (Frame.popCells_simulates slots).bind
      intro cs ds hcs
      apply Frame.pushCells_simulates (Cells.below_filterMap hcs.below order)
      intro w hw
      obtain ⟨i, _, hi⟩ := List.mem_filterMap.1 hw
      exact hcs.built w (List.mem_of_getElem? hi)
  | arithmetic op signature =>
      intro a b hab
      rw [perform]
      apply onFrame_agree hab
      exact arithmetic_simulates hab.folding op signature _ _ hab.frame
  | readField static name descriptor =>
      rw [perform]
      apply onFrame_simulates
      cases static with
      | true =>
          exact Frame.pushDescriptor_simulates descriptor (some name)
      | false =>
          apply Frame.pop_simulates.bind
          intro _ _ _
          exact Frame.pushDescriptor_simulates descriptor (some name)
  | writeField static descriptor =>
      rw [perform]
      apply onFrame_simulates
      apply (Frame.popDescriptor_simulates descriptor).bind
      intro _ _ _
      cases static with
      | true =>
          exact simulates_pure trivial
      | false =>
          exact Frame.popMany_simulates 1
  | call receiver descriptor =>
      apply (onFrame_simulates (Frame.popDescriptor_simulates descriptor)).bind
      intro _ _ _
      apply (popReceiver_simulates receiver).bind
      intro _ _ _
      exact onFrame_simulates (Frame.pushDescriptor_simulates descriptor none)
  | create type =>
      exact create_simulates type
  | refuse fault =>
      exact simulates_throw fault

/-- Machines of which less is known, whose values can be built. -/
structure BuiltBelow (a b : Machine) : Prop where
  below : Below a b
  built : b.frame.Built

theorem executeReachable_simulates
    (op : Opcode)
    {effect : Effect}
    (h : effect.Brings Value.Built) :
    Simulates BuiltBelow (fun _ _ => True) Fault.IsMismatch (executeReachable op effect)
      (executeReachable op effect) := by
  intro a b hab
  have hstart : Related Tracks (a.executing op) (b.executing op) :=
    hab.below.withFrame ⟨hab.below.frame.executing op, rfl, hab.built⟩
  have hperform := perform_simulates h _ _ hstart
  unfold executeReachable
  generalize perform effect (a.executing op) = x at hperform
  generalize perform effect (b.executing op) = y at hperform
  cases hperform with
  | ok hafter _ =>
      simp only
      split
      · have hleft := hafter.finished.withFrame hafter.frame.below.leave
        exact .ok ⟨hleft, Frame.built_stable.left hafter.frame.built⟩ trivial
      · have hbelow := hafter.finished.withFrame hafter.frame.below
        exact .ok ⟨hbelow, hafter.frame.built⟩ trivial
  | error hafter =>
      have hbelow := hafter.finished.withFrame hafter.frame.below
      exact .error ⟨hbelow, hafter.frame.built⟩
  | exempt he =>
      exact .exempt he

theorem executeInstruction_simulates
    (op : Opcode)
    (r : Record) :
    Simulates BuiltBelow (fun _ _ => True) Fault.IsMismatch (executeInstruction op r)
      (executeInstruction op r) := by
  unfold executeInstruction
  split
  · exact simulates_throw _
  · split
    · exact simulates_throw _
    · intro a b hab
      simp only [hab.below.frame.reachable]
      split
      · exact executeReachable_simulates op (effect_built r) a b hab
      · exact .ok ⟨hab.below.finished, hab.built⟩ trivial

theorem resetTo_simulates
    (locals stack : List VerificationType) :
    Simulates BuiltBelow (fun _ _ => True) Fault.IsMismatch
      (onFrame (Frame.resetTo locals stack)) (onFrame (Frame.resetTo locals stack)) := by
  intro a b hab
  have hbuilt := (Frame.built_stable.resetTo locals stack b.frame hab.built).1
  have hagree : Agree Frame.Below (fun _ _ => True) Fault.IsMismatch _ _ :=
    Frame.resetTo_simulates locals stack hab.below.frame
  unfold onFrame
  generalize Frame.resetTo locals stack a.frame = x at hagree
  generalize Frame.resetTo locals stack b.frame = y at hagree hbuilt
  cases hagree with
  | ok hfg _ =>
      exact .ok ⟨hab.below.withFrame hfg, hbuilt⟩ trivial
  | error hfg =>
      exact .error ⟨hab.below.withFrame hfg, hbuilt⟩
  | exempt he =>
      exact .exempt he

/-- One record on machines of which one knows less. -/
theorem execute_simulates
    (r : Record) :
    Simulates BuiltBelow (fun _ _ => True) Fault.IsMismatch (execute r) (execute r) := by
  cases hop : r.opcode? with
  | some op =>
      rw [execute_of_opcode hop]
      exact executeInstruction_simulates op r
  | none =>
      cases r with
      | label l =>
          intro a b hab
          refine .ok ⟨?_, hab.built⟩ trivial
          refine ⟨hab.below.frame, hab.below.owner, hab.below.folding, ?_, hab.below.created,
            hab.below.lastSite⟩
          simp only [hab.below.pending]
      | frame f =>
          rw [execute]
          split
          · exact resetTo_simulates f.locals f.stack
          · exact simulates_throw _
      | _ =>
          cases hop

/-- The machine after records, whether or not they failed. -/
def after
    (m : Machine) :
    List Record → Machine
  | [] => m
  | r :: rest => (execute r m).2.after rest

theorem runFrom_cons
    (method : Method)
    (tracing : Bool)
    (index : Nat)
    (m : Machine)
    (r : Record)
    (rest : List Record) :
    (runFrom method tracing index m ([] : List Empty) (r :: rest)).result =
      match execute r m with
      | (.error e, _) => .error e
      | (.ok (), next) =>
          (runFrom method tracing (index + 1) next ([] : List Empty) rest).result.map
            fun x => { x with records := r :: x.records } := by
  rw [runFrom, notify_nil]
  rcases execute r m with ⟨_ | _, next⟩ <;> rfl

/-- Records that succeed on a machine succeed where less is known, with the same result. -/
theorem runFrom_below
    {a b : Machine}
    (hab : BuiltBelow a b)
    {method : Method}
    {tracing : Bool}
    {index : Nat}
    {records : List Record}
    {x : Analysis}
    (h : (runFrom method tracing index b ([] : List Empty) records).result = .ok x) :
    (runFrom method tracing index a ([] : List Empty) records).result = .ok x ∧
      ∀ before, before <+: records → Below (a.after before) (b.after before) := by
  induction records generalizing a b index x with
  | nil =>
      constructor
      · rw [runFrom, hab.below.frame.maxStack, hab.below.frame.maxLocals]
        exact h
      · intro before hbefore
        rw [List.prefix_nil.1 hbefore]
        exact hab.below
  | cons r records ih =>
      rw [runFrom_cons] at h ⊢
      have hstep := execute_simulates r a b hab
      have hafter (m : Machine) (before : List Record) :
          m.after (r :: before) = (execute r m).2.after before := rfl
      generalize hx : execute r a = resultA at hstep
      generalize hy : execute r b = resultB at hstep
      rw [hy] at h
      cases hstep with
      | error _ =>
          cases h
      | exempt _ =>
          cases h
      | ok hnext _ =>
          -- The rest is a run from the next machines, so the statement is about any two.
          simp only at h ⊢
          obtain ⟨y, hrest, hxy⟩ := exists_of_map_eq_ok h
          obtain ⟨hresult, hbelow⟩ := ih hnext hrest
          refine ⟨?_, ?_⟩
          · rw [hresult, ← hxy]
            rfl
          · intro before hbefore
            cases before with
            | nil =>
                exact hab.below
            | cons other before =>
                obtain ⟨rfl, htail⟩ := List.cons_prefix_cons.1 hbefore
                rw [hafter, hafter, hx, hy]
                exact hbelow before htail

theorem closed_result
    {σ : Type}
    (x : Run σ)
    (method : Method)
    (count : Nat) :
    (x.closed method count).result = x.result := by
  unfold Run.closed
  split <;> rfl

theorem analyze_result
    {method : Method}
    {settings : Settings}
    {m : Machine}
    (h : start method settings = .ok m)
    (records : List Record) :
    (analyze method settings records).result =
      (runFrom method settings.tracing 0 m ([] : List Empty) records).result := by
  rw [analyze, run, h]
  exact closed_result _ _ _

theorem exists_of_analyze_eq_ok
    {method : Method}
    {settings : Settings}
    {records : List Record}
    {x : Analysis}
    (h : (analyze method settings records).result = .ok x) :
    ∃ m,
      start method settings = .ok m ∧
        (runFrom method settings.tracing 0 m ([] : List Empty) records).result = .ok x := by
  cases hstart : start method settings with
  | error e =>
      rw [analyze, run, hstart] at h
      cases h
  | ok m =>
      rw [analyze_result hstart] at h
      exact ⟨m, rfl, h⟩

/-- The machines at the start of a method, of which one does not fold. -/
theorem start_below
    {method : Method}
    {settings : Settings}
    {b : Machine}
    (h : start method settings = .ok b) :
    ∃ a, start method { settings with folding := false } = .ok a ∧ BuiltBelow a b := by
  have hbuilt : b.frame.Built := (Reached.start h).stable Frame.built_stable
  unfold start at h ⊢
  obtain ⟨f, hentry, rfl⟩ := exists_of_map_eq_ok h
  rw [hentry]
  refine ⟨_, rfl, ⟨?_, rfl, nofun, rfl, rfl, rfl⟩, hbuilt⟩
  exact ⟨Cells.below_refl _, Cells.below_refl _, rfl, rfl, rfl, rfl⟩

/--
Knowing less is safe. A record that succeeds succeeds where less is known, and one that
fails with another fault than a mismatch fails with the same one; less is known of the
machine after it, too. So an analysis that succeeds does so without folding, with the
same result, and without folding less is known of the machine after each record.
-/
theorem knowing_less_is_safe :
    (∀ (a b : Machine) (r : Record),
      Below a b → b.frame.Built →
        ((execute r b).1 = .ok () →
          (execute r a).1 = .ok () ∧ Below (execute r a).2 (execute r b).2) ∧
          ∀ e, (execute r b).1 = .error e → ¬e.IsMismatch →
            (execute r a).1 = .error e ∧ Below (execute r a).2 (execute r b).2) ∧
      ∀ (method : Method) (settings : Settings) (records : List Record) (x : Analysis),
        (analyze method settings records).result = .ok x →
          (analyze method { settings with folding := false } records).result = .ok x ∧
            ∃ a b,
              start method { settings with folding := false } = .ok a ∧
                start method settings = .ok b ∧
                ∀ before, before <+: records → Below (a.after before) (b.after before) := by
  constructor
  · intro a b r hab hbuilt
    have hstep := execute_simulates r a b ⟨hab, hbuilt⟩
    generalize execute r a = x at hstep
    generalize execute r b = y at hstep
    cases hstep with
    | ok hafter _ =>
        constructor
        · intro _
          exact ⟨rfl, hafter.below⟩
        · intro e he
          cases he
    | error hafter =>
        refine ⟨nofun, ?_⟩
        rintro e ⟨rfl⟩ _
        exact ⟨rfl, hafter.below⟩
    | exempt he =>
        refine ⟨nofun, ?_⟩
        rintro e ⟨rfl⟩ hmismatch
        exact absurd he hmismatch
  · intro method settings records x h
    obtain ⟨b, hstart, hrun⟩ := exists_of_analyze_eq_ok h
    obtain ⟨a, hother, hab⟩ := start_below hstart
    obtain ⟨hresult, hbelow⟩ := runFrom_below hab hrun
    refine ⟨?_, a, b, hother, hstart, hbelow⟩
    rw [analyze_result hother]
    exact hresult

/-- A machine with two numbers on its stack. -/
def summing
    (x y : Value)
    (folding : Bool) :
    Machine where
  frame := { Frame.empty none with stack := [x, y], maxStack := 2 }
  owner := "A"
  folding := folding
  pending := []
  created := []
  lastSite := 0

/-- A sum of unknown numbers, and an analysis that does not fold. -/
theorem knowing_less_is_safe_sum :
    Below (execute (.bare .iadd) (summing (.unknown .int) (.int 2) false)).2
        (execute (.bare .iadd) (summing (.int 3) (.int 2) true)).2 ∧
      (analyze ⟨"A", "run", "()V", true⟩ { Settings.standard with folding := false }
          [.bare .iconst2, .bare .iconst3, .bare .iadd]).result =
        .ok ⟨[.bare .iconst2, .bare .iconst3, .bare .iadd], 2, 0⟩ := by
  obtain ⟨hstep, hanalysis⟩ := knowing_less_is_safe
  constructor
  · have hunknown : Value.Below (.unknown .int) (.int 3) := ⟨rfl, rfl, Or.inl rfl⟩
    have hstack : Cells.Below [.unknown .int, .int 2] [.int 3, .int 2] :=
      .cons hunknown (Cells.below_refl _)
    have hframe :
        Frame.Below (summing (.unknown .int) (.int 2) false).frame
          (summing (.int 3) (.int 2) true).frame :=
      ⟨.nil, hstack, rfl, rfl, rfl, rfl⟩
    have hbuilt : (summing (.int 3) (.int 2) true).frame.Built := by
      intro v hv
      rcases List.mem_pair.1 hv with rfl | rfl
      · exact .int 3
      · exact .int 2
    exact ((hstep _ _ _ ⟨hframe, rfl, nofun, rfl, rfl, rfl⟩ hbuilt).1 rfl).2
  · refine (hanalysis _ .standard _ _ ?_).1
    rw [analyze_result (start_static _ _ _)]
    rfl

end Machine
end SlotFlow
