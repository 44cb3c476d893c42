import SlotFlow.Proofs.Machine.CallArgument
import SlotFlow.Proofs.Machine.Execution

/-!
# Where control can be

The records alone tell whether control can be at a point: not after an instruction that
ends the flow, until a frame states the types again. There, labels and instructions have no
effect whatever their operands are.

Main definitions:

* `flowEnding`: the opcodes after which control does not fall through;
* `FlowEnded`: records that have ended the flow and not stated a frame since;
* `Record.Skippable`: labels, and instructions that pass the checks before execution.

Main statements:

* `execute_reachable_eq_false_iff`: what one record does to reachability;
* `after_reachable_eq_false_iff`: what records do to it;
* `after_skippable`: records that are passed over;
* `reachability_by_records`: both, for the runs of a method.
-/

namespace SlotFlow

/-- The opcodes after which control does not fall through. -/
def flowEnding : List Opcode :=
  [.goto, .tableswitch, .lookupswitch, .athrow, .ireturn, .lreturn, .freturn, .dreturn,
    .areturn, .returnVoid]

theorem endsFlow_iff
    {op : Opcode} :
    op.endsFlow = true ↔ op ∈ flowEnding := by
  have hall : ∀ op ∈ Opcode.all, op.endsFlow = true ↔ op ∈ flowEnding := by
    decide +kernel
  exact hall op (Opcode.mem_all op)

namespace Record

/-- The instruction ends the flow of control. -/
def EndsFlow
    (r : Record) :
    Prop :=
  ∃ op ∈ flowEnding, r.opcode? = some op

/-- The record is a frame that states all its types. -/
def StatesFrame
    (r : Record) :
    Prop :=
  ∃ f, r = .frame f ∧ f.kind = .expanded

/-- The records that nothing can be wrong with where control cannot be. -/
inductive Skippable : Record → Prop
  | label
      (l : Label) :
      Skippable (.label l)
  | instruction
      {r : Record}
      {op : Opcode}
      (accepted : r.Accepted op) :
      Skippable r

end Record

/-- An instruction has ended the flow, and no frame was stated since. -/
def FlowEnded
    (records : List Record) :
    Prop :=
  ∃ before r later, records = before ++ r :: later ∧ r.EndsFlow ∧ ∀ x ∈ later, ¬ x.StatesFrame

theorem flowEnded_nil :
    ¬ FlowEnded [] := by
  rintro ⟨before, r, later, hsplit, _⟩
  simp at hsplit

theorem flowEnded_cons
    {r : Record}
    {rest : List Record} :
    FlowEnded (r :: rest) ↔
      FlowEnded rest ∨ (r.EndsFlow ∧ ∀ x ∈ rest, ¬ x.StatesFrame) := by
  constructor
  · rintro ⟨before, x, later, hsplit, hends, hlater⟩
    rcases List.cons_eq_append_iff.1 hsplit with ⟨rfl, hhead⟩ | ⟨before, rfl, rfl⟩
    · cases hhead
      exact .inr ⟨hends, hlater⟩
    · exact .inl ⟨before, x, later, rfl, hends, hlater⟩
  · rintro (⟨before, x, later, rfl, hends, hlater⟩ | ⟨hends, hrest⟩)
    · exact ⟨r :: before, x, later, rfl, hends, hlater⟩
    · exact ⟨[], r, rest, rfl, hends, hrest⟩

namespace Machine

variable {m : Machine}

/-- Labels and frames do not end the flow. -/
theorem not_endsFlow_of_opcode
    {r : Record}
    (h : r.opcode? = none) :
    ¬ r.EndsFlow := by
  rintro ⟨op, _, hop⟩
  rw [h] at hop
  cases hop

theorem not_endsFlow_of_continues
    {r : Record}
    {op : Opcode}
    (haccepted : r.Accepted op)
    (hcontinues : op.endsFlow = false) :
    ¬ r.EndsFlow := by
  rintro ⟨other, hother, hopcode⟩
  rw [haccepted.opcode] at hopcode
  cases hopcode
  rw [endsFlow_iff.2 hother] at hcontinues
  cases hcontinues

theorem not_statesFrame_of_accepted
    {r : Record}
    {op : Opcode}
    (haccepted : r.Accepted op) :
    ¬ r.StatesFrame := by
  rintro ⟨f, rfl, _⟩
  cases haccepted.opcode

/-- A record that succeeds ends the flow, lets it begin again, or leaves it as it is. -/
theorem execute_reachable_eq_false_iff
    {r : Record}
    (h : (execute r m).1 = .ok ()) :
    (execute r m).2.frame.reachable = false ↔
      r.EndsFlow ∨ (m.frame.reachable = false ∧ ¬ r.StatesFrame) := by
  have hexecution := execute_execution r m
  rw [h] at hexecution
  generalize (execute r m).2 = next at hexecution
  cases hexecution with
  | label l =>
      have hplain : ¬ (Record.label l).EndsFlow := not_endsFlow_of_opcode rfl
      have hlabel : ¬ (Record.label l).StatesFrame := by
        rintro ⟨_, hframe, _⟩
        cases hframe
      simp only [hplain, hlabel, not_false_eq_true, and_true, false_or]
  | @reset f kind room =>
      have hplain : ¬ (Record.frame f).EndsFlow := not_endsFlow_of_opcode rfl
      have hframe : (Record.frame f).StatesFrame := ⟨f, rfl, kind⟩
      simp [hplain, hframe, Frame.reset]
  | passed accepted unreachable =>
      have hframe := not_statesFrame_of_accepted accepted
      simp [finished, unreachable, hframe]
  | continued accepted reachable performed continues =>
      have hends := not_endsFlow_of_continues accepted continues
      have hnext := perform_reachable performed reachable
      simp [finished, hnext, hends, reachable]
  | @ended _ op _ accepted reachable performed ends =>
      have hends : r.EndsFlow := ⟨op, endsFlow_iff.1 ends, accepted.opcode⟩
      simp [Frame.leave, hends]

/-- The flow is ended after records if it was ended in them, or before and not begun again. -/
theorem after_reachable_eq_false_iff
    {records : List Record}
    (h : m.Succeeds records) :
    (m.after records).frame.reachable = false ↔
      FlowEnded records ∨
        (m.frame.reachable = false ∧ ∀ r ∈ records, ¬ r.StatesFrame) := by
  induction records generalizing m with
  | nil =>
      simp [after, flowEnded_nil]
  | cons r rest ih =>
      obtain ⟨hfirst, hrest⟩ := h
      have hstep := execute_reachable_eq_false_iff hfirst
      rw [after, ih hrest, hstep, flowEnded_cons, List.forall_mem_cons]
      tauto

theorem writeParameters_reachable
    (f : Frame)
    (index : Nat)
    (types : List FieldType) :
    (f.writeParameters index types).reachable = f.reachable := by
  induction types generalizing f index with
  | nil =>
      rfl
  | cons type types ih =>
      exact ih _ _

/-- A method starts where control is. -/
theorem start_reachable
    {method : Method}
    {settings : Settings}
    (h : start method settings = .ok m) :
    m.frame.reachable = true := by
  unfold start at h
  obtain ⟨f, hentry, rfl⟩ := exists_of_map_eq_ok h
  unfold Frame.entry at hentry
  split at hentry
  · cases hentry
  · split at hentry
    · cases hentry
      exact writeParameters_reachable _ _ _
    · cases hentry
      exact writeParameters_reachable _ _ _

/-- Where control cannot be, only the pending labels change. -/
theorem execute_skippable
    {r : Record}
    (hr : r.Skippable)
    (hdead : m.frame.reachable = false) :
    ∃ labels, execute r m = (.ok (), m.awaiting labels) := by
  cases hr with
  | label l =>
      exact ⟨m.pending ++ [l], rfl⟩
  | @instruction r op accepted =>
      refine ⟨[], ?_⟩
      rw [execute_of_opcode accepted.opcode, executeInstruction, accepted.plain, accepted.fits]
      simp [hdead, finished, awaiting]

theorem after_skippable
    {dead : List Record}
    (hdead : m.frame.reachable = false)
    (hskippable : ∀ r ∈ dead, r.Skippable) :
    m.Succeeds dead ∧ ∃ labels, m.after dead = m.awaiting labels := by
  induction dead generalizing m with
  | nil =>
      exact ⟨trivial, m.pending, rfl⟩
  | cons r dead ih =>
      obtain ⟨hfirst, hrest⟩ := List.forall_mem_cons.1 hskippable
      obtain ⟨labels, hexecute⟩ := execute_skippable hfirst hdead
      obtain ⟨hsucceeds, final, hafter⟩ :=
        ih (m := m.awaiting labels) hdead hrest
      simp only [Succeeds, after, hexecute]
      exact ⟨⟨trivial, hsucceeds⟩, final, hafter⟩

/--
After records that succeed, the frame is unreachable exactly if an instruction among them
has ended the flow and no frame was stated since. Where it is unreachable, labels and
instructions that pass the checks before execution succeed, in a row and whatever their
operands are, and change nothing but the labels that are pending.
-/
theorem reachability_by_records
    {method : Method}
    {settings : Settings}
    (h : start method settings = .ok m)
    (records : List Record) :
    (m.Succeeds records →
        ((m.after records).frame.reachable = false ↔ FlowEnded records)) ∧
      ((m.after records).frame.reachable = false →
        ∀ dead, (∀ r ∈ dead, r.Skippable) →
          (m.after records).Succeeds dead ∧
            ∃ labels, (m.after records).after dead = (m.after records).awaiting labels) := by
  constructor
  · intro hsucceeds
    rw [after_reachable_eq_false_iff hsucceeds, start_reachable h]
    simp
  · intro hdead dead hskippable
    exact after_skippable hdead hskippable

/-- After a return, what a malformed array and field would do is passed over. -/
theorem reachability_by_records_returned :
    let m : Machine := ⟨Frame.empty (some 0), "A", true, [], [], 0⟩
    let dead : List Record :=
      [.label ⟨1⟩, .integer .newarray 99, .field .getfield "A" "x" "oops"]
    (m.after [.bare .returnVoid]).frame.reachable = false ∧
      (m.after [.bare .returnVoid]).Succeeds dead ∧
      ∃ labels, (m.after [.bare .returnVoid]).after dead =
        (m.after [.bare .returnVoid]).awaiting labels := by
  intro m dead
  have hstart : start ⟨"A", "run", "()V", true⟩ ⟨some 0, true, false⟩ = .ok m :=
    start_static "A" "run" _
  obtain ⟨hiff, hdead⟩ := reachability_by_records hstart [.bare .returnVoid]
  have hended : FlowEnded [.bare .returnVoid] :=
    ⟨[], _, [], rfl, ⟨.returnVoid, by decide, rfl⟩, by simp⟩
  have hunreachable := (hiff ⟨rfl, trivial⟩).2 hended
  refine ⟨hunreachable, hdead hunreachable dead ?_⟩
  have harray : (Record.integer .newarray 99).Accepted .newarray := ⟨rfl, rfl, rfl⟩
  have hfield : (Record.field .getfield "A" "x" "oops").Accepted .getfield := ⟨rfl, rfl, rfl⟩
  simp only [dead, List.forall_mem_cons]
  exact ⟨.label _, .instruction harray, .instruction hfield, List.forall_mem_nil _⟩

end Machine
end SlotFlow
