import SlotFlow.Proofs.Machine.Settled
import SlotFlow.Proofs.Machine.Succeeds

/-!
# The least sufficient stack limit

The mark of the deepest stack decides which limits an analysis goes through with. With a
limit no less than the mark it takes the same steps as without one; with a lower limit
it stops, for the stack overflows where the mark first goes past the limit.

Main definitions:

* `Frame.limited`, `Machine.limited`: the same with a stack limit;
* `Confined`: operations that a limit changes nothing about, unless the mark goes past
  it, and that overflow then.

Main statements:

* `execute_confined`: every record is confined by every limit;
* `maxStack_least_limit`: the mark is the least limit that an analysis goes through with.
-/

namespace SlotFlow

/-- The frame with a stack limit. -/
def Frame.limited
    (limit : Nat)
    (f : Frame) :
    Frame :=
  { f with limit := some limit }

/-- The machine with a stack limit. -/
def Machine.limited
    (limit : Nat)
    (m : Machine) :
    Machine :=
  { m with frame := m.frame.limited limit }

section Confined

variable {σ α β : Type} {view : σ → Frame} {bounded : σ → σ} {limit : Nat}

/--
As long as the mark is within the limit, the operation does the same on the state that is
bounded by it; where the mark goes past the limit, the stack overflows there.
-/
structure Confined
    (view : σ → Frame)
    (bounded : σ → σ)
    (limit : Nat)
    (act : ExceptT Fault (StateM σ) α) : Prop extends Evolves view act where
  within :
    ∀ s, (view s).limit = none → (view (act s).2).maxStack ≤ limit →
      act (bounded s) = ((act s).1, bounded (act s).2)
  beyond :
    ∀ s, (view s).limit = none → (view s).maxStack ≤ limit →
      limit < (view (act s).2).maxStack → (act (bounded s)).1 = .error (.stackOverflow limit)

/-- Where the first operation fails, nothing comes after it. -/
theorem bind_fails
    {act : ExceptT Fault (StateM σ) α}
    {s : σ}
    {e : Fault}
    (h : (act s).1 = .error e)
    (next : α → ExceptT Fault (StateM σ) β) :
    ((act >>= next) s).1 = .error e := by
  rw [run_bind]
  rcases hact : act s with ⟨_, t⟩
  rw [hact] at h
  cases h
  rfl

theorem Confined.bind
    {act : ExceptT Fault (StateM σ) α}
    {next : α → ExceptT Fault (StateM σ) β}
    (h : Confined view bounded limit act)
    (hnext : ∀ a, Confined view bounded limit (next a)) :
    Confined view bounded limit (act >>= next) := by
  refine ⟨h.toEvolves.bind fun a => (hnext a).toEvolves, ?_, ?_⟩
  · intro s hfree
    have hwithin := h.within s hfree
    have hgrows := h.grows s
    rw [run_bind, run_bind]
    rcases hact : act s with ⟨e | a, t⟩ <;> rw [hact] at hwithin hgrows
    · intro hmark
      rw [hwithin hmark]
    · intro hmark
      have hlater := (hnext a).grows t
      rw [hwithin (Nat.le_trans hlater.maxStack hmark)]
      exact (hnext a).within t (hgrows.limit.trans hfree) hmark
  · intro s hfree hfits hmark
    -- either the first operation has gone past the limit or the second one does
    by_cases hmiddle : (view (act s).2).maxStack ≤ limit
    · have hwithin := h.within s hfree hmiddle
      have hgrows := h.grows s
      rw [run_bind] at hmark ⊢
      rw [hwithin]
      rcases hact : act s with ⟨e | a, t⟩ <;> rw [hact] at hmark hmiddle hgrows
      · exact absurd hmark (Nat.not_lt.2 hmiddle)
      · exact (hnext a).beyond t (hgrows.limit.trans hfree) hmiddle hmark
    · exact bind_fails (h.beyond s hfree hfits (Nat.lt_of_not_le hmiddle)) next

/-- What neither looks at the limit nor touches the mark. -/
theorem confined_of_commutes
    {act : ExceptT Fault (StateM σ) α}
    (hevolves : Evolves view act)
    (hmark : ∀ s, (view (act s).2).maxStack = (view s).maxStack)
    (hcommutes : Commutes bounded act) :
    Confined view bounded limit act := by
  refine ⟨hevolves, fun s _ _ => hcommutes s, ?_⟩
  intro s _ hfits hmore
  rw [hmark] at hmore
  omega

theorem confined_pure
    (a : α) :
    Confined view bounded limit (pure a) :=
  confined_of_commutes (evolves_pure a) (fun _ => rfl) (commutes_pure a)

theorem confined_throw
    (e : Fault) :
    Confined view bounded limit (throw e : ExceptT Fault (StateM σ) α) :=
  confined_of_commutes (evolves_throw e) (fun _ => rfl) (commutes_throw e)

end Confined

namespace Frame

variable {limit : Nat}

theorem limited_stack
    (f : Frame) :
    (f.limited limit).stack = f.stack :=
  rfl

theorem whenReachable_limited
    {α : Type}
    (act : Frame → Except Fault α × Frame)
    (f : Frame) :
    whenReachable act (f.limited limit) =
      if f.reachable then act (f.limited limit) else (.error .unreachable, f.limited limit) :=
  rfl

theorem exceeded_limited
    (f : Frame)
    (depth : Nat) :
    (f.limited limit).exceeded? depth = if limit < depth then some limit else none := by
  simp only [limited, exceeded?, Option.filter_some, decide_eq_true_eq]

theorem exceeded_of_free
    {f : Frame}
    (hfree : f.limit = none)
    (depth : Nat) :
    f.exceeded? depth = none := by
  rw [exceeded?, hfree]
  rfl

theorem confined_whenReachable
    {α : Type}
    {act : Frame → Except Fault α × Frame}
    (hevolves : Evolves view (whenReachable act))
    (hmark : ∀ f : Frame, (act f).2.maxStack = f.maxStack)
    (hcommutes : ∀ f : Frame, act (f.limited limit) = ((act f).1, (act f).2.limited limit)) :
    Confined view (limited limit) limit (whenReachable act) := by
  apply confined_of_commutes hevolves
  · intro f
    unfold whenReachable
    split
    · exact hmark f
    · rfl
  · intro f
    rw [whenReachable_limited, whenReachable]
    split
    · exact hcommutes f
    · rfl

theorem push_confined
    (v : Value) :
    Confined view (limited limit) limit (push v) := by
  refine ⟨evolves_judgement.push v, ?_, ?_⟩
  · intro f hfree hmark
    by_cases hreachable : f.reachable = true
    · have hfull := push_run (v := v) hreachable (exceeded_of_free hfree _)
      rw [hfull] at hmark ⊢
      have hroom : (f.limited limit).exceeded? ((f.limited limit).stack.length + 1) = none := by
        rw [exceeded_limited, if_neg]
        exact Nat.not_lt.2 (Nat.le_trans (Nat.le_max_right _ _) hmark)
      exact push_run hreachable hroom
    · rw [push, whenReachable_limited, whenReachable, if_neg hreachable, if_neg hreachable]
  · intro f hfree (hfits : f.maxStack ≤ limit) hmark
    by_cases hreachable : f.reachable = true
    · rw [push_run hreachable (exceeded_of_free hfree _)] at hmark
      have hdeep : limit < f.stack.length + 1 := by
        simp only [pushed] at hmark
        omega
      rw [push, whenReachable_limited, if_pos hreachable]
      simp only [limited_stack, exceeded_limited, if_pos hdeep]
    · rw [push, whenReachable, if_neg hreachable] at hmark
      exact absurd hmark (Nat.not_lt.2 hfits)

theorem resetTo_confined
    (locals stack : List VerificationType) :
    Confined view (limited limit) limit (resetTo locals stack) := by
  have hreset (f : Frame) (hfree : f.limit = none) :
      resetTo locals stack f = (.ok (), f.reset locals stack) := by
    simp only [resetTo, exceeded_of_free hfree]
    rfl
  refine ⟨evolves_judgement.resetTo locals stack, ?_, ?_⟩
  · intro f hfree hmark
    rw [hreset f hfree] at hmark ⊢
    have hroom : ¬limit < (expand stack).length :=
      Nat.not_lt.2 (Nat.le_trans (Nat.le_max_right _ _) hmark)
    simp only [resetTo, exceeded_limited, if_neg hroom]
    rfl
  · intro f hfree (hfits : f.maxStack ≤ limit) hmark
    rw [hreset f hfree] at hmark
    have hdeep : limit < (expand stack).length := by
      simp only [reset] at hmark
      omega
    simp only [resetTo, exceeded_limited, if_pos hdeep]

/-- Only pushes and frame records look at the limit. -/
theorem confined_judgement :
    Judgement fun _ => Confined view (limited limit) limit where
  pure := confined_pure
  throw := confined_throw
  bind := Confined.bind
  getLocal index :=
    confined_whenReachable (evolves_judgement.getLocal index) (fun _ => rfl) fun _ => rfl
  setLocal index v :=
    confined_whenReachable (evolves_judgement.setLocal index v) (fun _ => rfl) fun _ => rfl
  push := push_confined
  pop := by
    apply confined_whenReachable evolves_judgement.pop
    · intro f
      cases hstack : f.stack <;> rfl
    · intro f
      cases hstack : f.stack <;> simp only [limited_stack, hstack] <;> rfl
  popWide count := by
    apply confined_whenReachable (evolves_judgement.popWide count)
    · intro f
      split <;> rfl
    · intro f
      cases count with
      | zero =>
          rfl
      | succ count =>
          cases hdrop : f.stack.drop count <;>
            simp only [limited_stack, Nat.add_sub_cancel, hdrop] <;> rfl
  popMany count := by
    apply confined_whenReachable (evolves_judgement.popMany count)
    · intro f
      split <;> rfl
    · intro f
      by_cases hfew : f.stack.length < count
      · rw [if_pos hfew, if_pos (by exact hfew)]
        rfl
      · rw [if_neg hfew, if_neg (by exact hfew)]
        rfl
  resetTo := resetTo_confined

end Frame

namespace Machine

variable {m : Machine} {limit : Nat}

theorem onFrame_confined
    {α : Type}
    {act : FrameM α}
    (h : Confined Frame.view (Frame.limited limit) limit act) :
    Confined frame (limited limit) limit (onFrame act) := by
  refine ⟨evolves_judgement.onFrame h.toEvolves, ?_, ?_⟩
  · intro m hfree hmark
    have hwithin := h.within m.frame hfree hmark
    change ((act (m.frame.limited limit)).1,
      { m with frame := (act (m.frame.limited limit)).2 }) = _
    rw [hwithin]
    rfl
  · intro m hfree hfits hmark
    exact h.beyond m.frame hfree hfits hmark

/-- What a `new` does depends on the frame only through what it pushes there. -/
theorem create_eq
    (m : Machine)
    (type : String) :
    ∃ site created lastSite, ∀ f,
      create type { m with frame := f } =
        onFrame (Frame.push (.uninitialized site))
          { m with frame := f, created := created, lastSite := lastSite } := by
  cases hpending : m.pending with
  | nil =>
      exact ⟨.synthetic (m.lastSite + 1), (.synthetic (m.lastSite + 1), type) :: m.created,
        m.lastSite + 1, fun _ => rfl⟩
  | cons l rest =>
      exact ⟨.label l, (l :: rest).map (fun l => (.label l, type)) ++ m.created, m.lastSite,
        fun _ => rfl⟩

theorem create_confined
    (type : String) :
    Confined frame (limited limit) limit (create type) := by
  have hpush (site : CreationSite) :
      Confined frame (limited limit) limit (onFrame (Frame.push (.uninitialized site))) :=
    onFrame_confined (Frame.push_confined (.uninitialized site))
  refine ⟨evolves_judgement.create type, ?_, ?_⟩
  · intro m hfree hmark
    obtain ⟨site, created, lastSite, hcreate⟩ := m.create_eq type
    change create type { m with frame := m.frame.limited limit } = _
    rw [show create type m = _ from hcreate m.frame] at hmark ⊢
    rw [hcreate (m.frame.limited limit)]
    exact (hpush site).within { m with created := created, lastSite := lastSite } hfree hmark
  · intro m hfree hfits hmark
    obtain ⟨site, created, lastSite, hcreate⟩ := m.create_eq type
    change (create type { m with frame := m.frame.limited limit }).1 = _
    rw [show create type m = _ from hcreate m.frame] at hmark
    rw [hcreate (m.frame.limited limit)]
    exact (hpush site).beyond { m with created := created, lastSite := lastSite } hfree hfits
      hmark

theorem completeConstruction_confined
    (v : Value)
    (callOwner : String) :
    Confined frame (limited limit) limit (completeConstruction v callOwner) := by
  apply confined_of_commutes (evolves_judgement.completeConstruction v callOwner)
  · intro m
    unfold completeConstruction
    split <;> rfl
  · intro m
    have htype : (m.limited limit).constructedType? v.category callOwner =
        m.constructedType? v.category callOwner :=
      rfl
    unfold completeConstruction
    rw [htype]
    split <;> rfl

/-- The mark after an instruction is the one that its effect has left. -/
theorem executeReachable_maxStack
    (op : Opcode)
    (effect : Effect)
    (m : Machine) :
    (executeReachable op effect m).2.frame.maxStack =
      (perform effect (m.executing op)).2.frame.maxStack := by
  unfold executeReachable
  rcases perform effect (m.executing op) with ⟨_ | _, after⟩
  · rfl
  · simp only
    split <;> rfl

theorem executeReachable_confined
    (op : Opcode)
    {effect : Effect}
    (h : Confined frame (limited limit) limit (perform effect)) :
    Confined frame (limited limit) limit (executeReachable op effect) := by
  refine ⟨evolves_judgement.executeReachable op h.toEvolves, ?_, ?_⟩
  · intro m hfree hmark
    rw [executeReachable_maxStack] at hmark
    have hwithin : perform effect ((m.limited limit).executing op) = _ :=
      h.within (m.executing op) hfree hmark
    unfold executeReachable
    rw [hwithin]
    rcases perform effect (m.executing op) with ⟨_ | _, after⟩
    · rfl
    · simp only
      split <;> rfl
  · intro m hfree hfits hmark
    rw [executeReachable_maxStack] at hmark
    rw [executeReachable_fst]
    exact h.beyond (m.executing op) hfree hfits hmark

theorem whereReachable_confined
    {act : MachineM Unit}
    (h : Confined frame (limited limit) limit act) :
    Confined frame (limited limit) limit fun m =>
      if m.frame.reachable then act m else (.ok (), m.finished) := by
  have hlimited (m : Machine) : (m.limited limit).frame.reachable = m.frame.reachable :=
    rfl
  refine ⟨evolves_judgement.whereReachable h.toEvolves, ?_, ?_⟩
  · intro m hfree hmark
    by_cases hreachable : m.frame.reachable = true
    · simp only [hlimited, hreachable, if_true] at hmark ⊢
      exact h.within m hfree hmark
    · simp only [hlimited, if_neg hreachable]
      rfl
  · intro m hfree hfits hmark
    by_cases hreachable : m.frame.reachable = true
    · simp only [hlimited, hreachable, if_true] at hmark ⊢
      exact h.beyond m hfree hfits hmark
    · simp only [if_neg hreachable] at hmark
      exact absurd hmark (Nat.not_lt.2 hfits)

/-- No step looks at the limit but through the operations on the frame. -/
theorem confined_judgement :
    Judgement (fun _ => Confined Frame.view (Frame.limited limit) limit)
      (fun _ => Confined frame (limited limit) limit) where
  frame := Frame.confined_judgement
  pure := confined_pure
  throw := confined_throw
  bind := Confined.bind
  onFrame := onFrame_confined
  folding act h :=
    ⟨evolves_judgement.folding act fun folding => (h folding).toEvolves,
      fun m => (h m.folding).within m, fun m => (h m.folding).beyond m⟩
  completeConstruction := completeConstruction_confined
  create := create_confined
  executeReachable := executeReachable_confined
  whereReachable := whereReachable_confined
  label l := confined_of_commutes (evolves_judgement.label l) (fun _ => rfl) fun _ => rfl

/-- A limit changes nothing about a record unless the mark goes past it. -/
theorem execute_confined
    (r : Record) :
    Confined frame (limited limit) limit (execute r) :=
  confined_judgement.execute r

theorem succeeds_limited
    {records : List Record}
    (hfree : m.frame.limit = none)
    (h : m.Succeeds records)
    (hmark : (m.after records).frame.maxStack ≤ limit) :
    (m.limited limit).Succeeds records ∧
      (m.limited limit).after records = (m.after records).limited limit := by
  induction records generalizing m with
  | nil =>
      exact ⟨trivial, rfl⟩
  | cons r rest ih =>
      obtain ⟨hstep, hrest⟩ := h
      have hgrows := (execute_evolves r).grows m
      have hlater := (execute r m).2.after_grows rest
      have hsame := (execute_confined r).within m hfree (Nat.le_trans hlater.maxStack hmark)
      simp only [Succeeds, after, hsame]
      obtain ⟨hsucceeds, hafter⟩ := ih (hgrows.limit.trans hfree) hrest hmark
      exact ⟨⟨hstep, hsucceeds⟩, hafter⟩

/-- The record with which the mark goes past the limit is the one that fails. -/
theorem runFrom_overflows
    {method : Method}
    {tracing : Bool}
    {index : Nat}
    {records : List Record}
    (hfree : m.frame.limit = none)
    (hfits : m.frame.maxStack ≤ limit)
    (h : m.Succeeds records)
    (hmark : limit < (m.after records).frame.maxStack) :
    (runFrom method tracing index (m.limited limit) ([] : List Empty) records).result =
      .error (.stackOverflow limit) := by
  induction records generalizing m index with
  | nil =>
      exact absurd hmark (Nat.not_lt.2 hfits)
  | cons r rest ih =>
      obtain ⟨hstep, hrest⟩ := h
      have hgrows := (execute_evolves r).grows m
      have hconfined : Confined frame (limited limit) limit (execute r) := execute_confined r
      rw [runFrom_cons]
      by_cases hnext : (execute r m).2.frame.maxStack ≤ limit
      · have hsame := hconfined.within m hfree hnext
        rw [hstep] at hsame
        rw [hsame]
        simp only
        rw [ih (hgrows.limit.trans hfree) hnext hrest hmark]
        rfl
      · have hfails := hconfined.beyond m hfree hfits (Nat.lt_of_not_le hnext)
        rcases hlimited : execute r (m.limited limit) with ⟨_, next⟩
        rw [hlimited] at hfails
        cases hfails
        rfl

end Machine

namespace Frame

theorem writeParameters_limited
    (f : Frame)
    (limit index : Nat)
    (types : List FieldType) :
    (f.limited limit).writeParameters index types = (f.writeParameters index types).limited limit ∧
      (f.writeParameters index types).maxStack = f.maxStack := by
  induction types generalizing f index with
  | nil =>
      exact ⟨rfl, rfl⟩
  | cons type types ih =>
      exact ih (f.writeLocal index (.unknown (.ofFieldType type))) (index + type.size)

/-- At the start of a method nothing is on the stack, whatever the limit. -/
theorem entry_limited
    {method : Method}
    {f : Frame}
    (h : entry method none = .ok f)
    (limit : Nat) :
    entry method (some limit) = .ok (f.limited limit) ∧ f.maxStack = 0 := by
  unfold entry at h ⊢
  cases hparse : MethodDescriptor.parse? method.descriptor with
  | none =>
      rw [hparse] at h
      cases h
  | some d =>
      rw [hparse] at h
      simp only at h ⊢
      split at h
      · rename_i hstatic
        cases h
        obtain ⟨hlimited, hmark⟩ := (empty none).writeParameters_limited limit 0 d.parameters
        rw [if_pos hstatic]
        exact ⟨congrArg Except.ok hlimited, hmark⟩
      · rename_i hstatic
        cases h
        obtain ⟨hlimited, hmark⟩ :=
          ((empty none).writeLocal 0 (receiver method)).writeParameters_limited limit 1
            d.parameters
        rw [if_neg hstatic]
        exact ⟨congrArg Except.ok hlimited, hmark⟩

end Frame

namespace Machine

variable {m : Machine} {limit : Nat}

theorem start_limited
    {method : Method}
    {settings : Settings}
    (h : start method { settings with maxStack := none } = .ok m)
    (limit : Nat) :
    start method { settings with maxStack := some limit } = .ok (m.limited limit) ∧
      m.frame.limit = none ∧ m.frame.maxStack = 0 := by
  have hfree := (start_coherent h).2
  unfold start at h ⊢
  obtain ⟨f, hentry, rfl⟩ := exists_of_map_eq_ok h
  obtain ⟨hlimited, hmark⟩ := Frame.entry_limited hentry limit
  rw [hlimited]
  exact ⟨rfl, hfree, hmark⟩

/--
The mark of an analysis without a stack limit is the least limit that the analysis goes
through with: with it and all greater ones the result is the same, with every lower one
the stack overflows.
-/
theorem maxStack_least_limit
    {method : Method}
    {settings : Settings}
    {records : List Record}
    {x : Analysis}
    (h : (analyze method { settings with maxStack := none } records).result = .ok x)
    (limit : Nat) :
    let limited := (analyze method { settings with maxStack := some limit } records).result
    ((∃ y, limited = .ok y) ↔ x.maxStack ≤ limit) ∧
      (x.maxStack ≤ limit → limited = .ok x) ∧
      (limit < x.maxStack → limited = .error (.stackOverflow limit)) := by
  intro limited
  obtain ⟨m, hstart, hsucceeds, rfl⟩ := analyze_eq_ok_iff.1 h
  obtain ⟨hbounded, hfree, hempty⟩ := start_limited hstart limit
  have hwithin (hmark : (m.reported records).maxStack ≤ limit) :
      limited = .ok (m.reported records) := by
    obtain ⟨hstill, hafter⟩ := succeeds_limited hfree hsucceeds hmark
    refine analyze_eq_ok_iff.2 ⟨m.limited limit, hbounded, hstill, ?_⟩
    simp only [reported, hafter]
    rfl
  have hbeyond (hmark : limit < (m.reported records).maxStack) :
      limited = .error (.stackOverflow limit) := by
    have hfits : m.frame.maxStack ≤ limit := hempty ▸ Nat.zero_le limit
    exact (analyze_result hbounded records).trans (runFrom_overflows hfree hfits hsucceeds hmark)
  refine ⟨⟨?_, fun hmark => ⟨_, hwithin hmark⟩⟩, hwithin, hbeyond⟩
  rintro ⟨y, hy⟩
  by_contra hmark
  rw [hbeyond (Nat.lt_of_not_le hmark)] at hy
  cases hy

/-- A long is copied, so that four slots are needed for a moment. -/
theorem maxStack_least_limit_dup2 :
    let method : Method := ⟨"A", "run", "()V", true⟩
    let records : List Record :=
      [.bare .lconst1, .bare .dup2, .bare .ladd, .bare .pop2, .bare .iconst0]
    (analyze method { Settings.standard with maxStack := some 3 } records).result =
        .error (.stackOverflow 3) ∧
      (analyze method { Settings.standard with maxStack := some 4 } records).result =
        .ok ⟨records, 4, 0⟩ := by
  intro method records
  have hfree :
      (analyze method { Settings.standard with maxStack := none } records).result =
        .ok ⟨records, 4, 0⟩ := by
    rw [analyze_result (start_static _ _ _)]
    rfl
  exact ⟨(maxStack_least_limit hfree 3).2.2 (by decide),
    (maxStack_least_limit hfree 4).2.1 (by decide)⟩

end Machine
end SlotFlow
