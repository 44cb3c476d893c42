import SlotFlow.Proofs.Machine.Consistent

/-!
# Runs that succeed

Observers do not touch the machine: an analysis that goes through has executed its
records, each on the machine that the ones before it have left. Without observers it
adds nothing to them.

Main definition:

* `Machine.Succeeds`: each of the records succeeds on the machine that the ones before it
  have left.

Main statements:

* `exists_of_runFrom_cons_eq_ok`: one record of an analysis that goes through;
* `succeeds_of_runFrom_eq_ok`: the records of an analysis that goes through succeed;
* `runFrom_eq_ok_iff`: without observers the analysis goes through exactly if the records
  succeed, and reports them with the marks of the last frame;
* `succeeds_append`: records in a row.
-/

namespace SlotFlow
namespace Machine

variable {m : Machine}

/-- Each of the records succeeds where the ones before it have led. -/
def Succeeds
    (m : Machine) :
    List Record → Prop
  | [] => True
  | r :: rest => (execute r m).1 = .ok () ∧ (execute r m).2.Succeeds rest

instance decidableSucceeds
    (m : Machine) :
    (records : List Record) → Decidable (m.Succeeds records)
  | [] => isTrue trivial
  | r :: rest =>
      have := decidableSucceeds (execute r m).2 rest
      inferInstanceAs (Decidable ((execute r m).1 = .ok () ∧ (execute r m).2.Succeeds rest))

theorem succeeds_append
    (before rest : List Record) :
    m.Succeeds (before ++ rest) ↔ m.Succeeds before ∧ (m.after before).Succeeds rest := by
  induction before generalizing m with
  | nil =>
      exact ⟨fun h => ⟨trivial, h⟩, fun h => h.2⟩
  | cons r before ih =>
      simp only [List.cons_append, Succeeds, after]
      rw [ih, and_assoc]

/-- In an analysis that goes through, no observer fails, nor does the record, nor the rest. -/
theorem exists_of_runFrom_cons_eq_ok
    {σ : Type}
    [Observer σ]
    {method : Method}
    {tracing : Bool}
    {index : Nat}
    {observers : List σ}
    {r : Record}
    {rest : List Record}
    {x : Analysis}
    (h : (runFrom method tracing index m observers (r :: rest)).result = .ok x) :
    ∃ e y,
      (notify r m.frame observers .none).outcome = .ok e ∧
      (execute r m).1 = .ok () ∧
      x = { y with records := e.output r ++ y.records } ∧
      (runFrom method tracing (index + 1) (execute r m).2
          (notify r m.frame observers .none).observers rest).result = .ok y ∧
      (runFrom method tracing index m observers (r :: rest)).observers =
        (runFrom method tracing (index + 1) (execute r m).2
          (notify r m.frame observers .none).observers rest).observers := by
  rw [runFrom] at h ⊢
  cases hnotify : (notify r m.frame observers .none).outcome with
  | error fault =>
      simp only [hnotify] at h
      cases h
  | ok e =>
      rcases hstep : execute r m with ⟨fault | _, next⟩
      · simp only [hnotify, hstep] at h
        cases h
      · simp only [hnotify, hstep] at h ⊢
        obtain ⟨y, hrest, hxy⟩ := exists_of_map_eq_ok h
        exact ⟨e, y, rfl, trivial, hxy.symm, hrest, rfl⟩

/-- Whatever the observers do, the records of an analysis that goes through succeed. -/
theorem succeeds_of_runFrom_eq_ok
    {σ : Type}
    [Observer σ]
    {method : Method}
    {tracing : Bool}
    {index : Nat}
    {observers : List σ}
    {records : List Record}
    {x : Analysis}
    (h : (runFrom method tracing index m observers records).result = .ok x) :
    m.Succeeds records ∧ x.maxStack = (m.after records).frame.maxStack ∧
      x.maxLocals = (m.after records).frame.maxLocals := by
  induction records generalizing m index observers x with
  | nil =>
      cases h
      exact ⟨trivial, rfl, rfl⟩
  | cons r rest ih =>
      obtain ⟨e, y, _, hstep, rfl, hrest, _⟩ := exists_of_runFrom_cons_eq_ok h
      obtain ⟨hsucceeds, hstack, hlocals⟩ := ih hrest
      exact ⟨⟨hstep, hsucceeds⟩, hstack, hlocals⟩

/-- What an analysis of records reports. -/
def reported
    (m : Machine)
    (records : List Record) :
    Analysis :=
  ⟨records, (m.after records).frame.maxStack, (m.after records).frame.maxLocals⟩

/-- An analysis without observers goes through exactly if its records succeed. -/
theorem runFrom_eq_ok_iff
    {method : Method}
    {tracing : Bool}
    {index : Nat}
    {records : List Record}
    {x : Analysis} :
    (runFrom method tracing index m ([] : List Empty) records).result = .ok x ↔
      m.Succeeds records ∧ x = m.reported records := by
  induction records generalizing m index x with
  | nil =>
      rw [runFrom]
      constructor
      · intro h
        cases h
        exact ⟨trivial, rfl⟩
      · rintro ⟨_, rfl⟩
        rfl
  | cons r rest ih =>
      rw [runFrom_cons, Succeeds]
      rcases hstep : execute r m with ⟨e | _, next⟩
      · simp
      · have hreported :
            m.reported (r :: rest) = { next.reported rest with records := r :: rest } := by
          simp only [reported, after, hstep]
        simp only [true_and, hreported]
        constructor
        · intro h
          obtain ⟨y, hrest, rfl⟩ := exists_of_map_eq_ok h
          obtain ⟨hsucceeds, rfl⟩ := ih.1 hrest
          exact ⟨hsucceeds, rfl⟩
        · rintro ⟨hsucceeds, rfl⟩
          rw [ih.2 ⟨hsucceeds, rfl⟩]
          rfl

/-- An analysis with observers starts where its method can be entered. -/
theorem run_eq
    {σ : Type}
    [Observer σ]
    {method : Method}
    {settings : Settings}
    (hstart : start method settings = .ok m)
    (observers : List σ)
    (records : List Record) :
    (run method settings observers records).result =
        (runFrom method settings.tracing 0 m observers records).result ∧
      (run method settings observers records).observers =
        (runFrom method settings.tracing 0 m observers records).observers := by
  rw [run, hstart]
  refine ⟨closed_result _ _ _, ?_⟩
  simp only
  rw [Run.closed]
  split <;> rfl

/-- A whole analysis goes through exactly if its method can be entered and its records succeed. -/
theorem analyze_eq_ok_iff
    {method : Method}
    {settings : Settings}
    {records : List Record}
    {x : Analysis} :
    (analyze method settings records).result = .ok x ↔
      ∃ m, start method settings = .ok m ∧ m.Succeeds records ∧ x = m.reported records := by
  constructor
  · intro h
    obtain ⟨m, hstart, hrun⟩ := exists_of_analyze_eq_ok h
    exact ⟨m, hstart, runFrom_eq_ok_iff.1 hrun⟩
  · rintro ⟨m, hstart, hrecords⟩
    rw [analyze_result hstart]
    exact runFrom_eq_ok_iff.2 hrecords

end Machine
end SlotFlow
