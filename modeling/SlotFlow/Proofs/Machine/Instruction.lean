import SlotFlow.Proofs.Frame.Marks
import SlotFlow.Proofs.Frame.Overwrite
import SlotFlow.Proofs.Machine.Performed
import SlotFlow.Proofs.Machine.Settled
import SlotFlow.Proofs.Machine.Succeeds

/-!
# Single instructions

The machine that an instruction leaves where control can be, there are operands and there is
room. An instruction uses the pending labels up, whatever else it does.

Main definition:

* `Machine.Runs`: records that succeed, and the machine that they lead to.

Main statements:

* `execute_of_onFrame`: an instruction that operates on the frame and succeeds;
* `execute_pop`, `execute_load`, `execute_iload`, `execute_istore`, `execute_increment`: what
  these instructions leave.
-/

namespace SlotFlow

/-- Operations in a row go on where the first one has led. -/
theorem bind_of_run
    {σ α β : Type}
    {act : ExceptT Fault (StateM σ) α}
    {s t : σ}
    {a : α}
    (h : act s = (.ok a, t))
    (next : α → ExceptT Fault (StateM σ) β) :
    (act >>= next) s = next a t := by
  rw [run_bind, h]

namespace Frame

variable {f : Frame} {v : Value} {rest : List Value}

theorem popMany_one
    (hreachable : f.reachable = true)
    (hstack : f.stack = v :: rest) :
    popMany 1 f = (.ok (), { f with stack := rest }) := by
  have henough : 1 ≤ f.stack.length := by
    simp [hstack]
  rw [popMany_run hreachable henough, hstack]
  rfl

theorem popWide_one
    (hreachable : f.reachable = true)
    (hstack : f.stack = v :: rest) :
    popWide 1 f = (.ok v, { f with stack := rest }) := by
  simp [popWide, whenReachable, hreachable, hstack]

theorem pushSized_of_narrow
    (hreachable : f.reachable = true)
    (hroom : f.exceeded? (f.stack.length + 1) = none)
    (hnarrow : v.isWide = false) :
    pushSized v f = (.ok (), f.pushed v) := by
  rw [pushSized, bind_of_run (push_run hreachable hroom), hnarrow]
  rfl

/-- A write sets the mark of the locals no lower than a read of the local has set it. -/
theorem writeLocal_of_read
    (f : Frame)
    (index : Nat)
    (v : Value) :
    (f.remarked (f.marks.reading (index + 1))).writeLocal index v = f.writeLocal index v := by
  have hlength : index + 1 ≤ (Locals.write f.locals index v).length := by
    rw [Locals.length_write]
    split <;> omega
  have hmark :
      max (max f.maxLocals (index + 1)) (Locals.write f.locals index v).length =
        max f.maxLocals (Locals.write f.locals index v).length := by
    omega
  exact congrArg (fun count => { f.writeLocal index v with maxLocals := count }) hmark

end Frame

namespace Machine

variable {m : Machine} {v : Value} {rest : List Value}

/-- An instruction succeeds by an operation on the frame that does. -/
theorem execute_of_onFrame
    {r : Record}
    {op : Opcode}
    {act : FrameM Unit}
    {g : Frame}
    (hr : r.Executable op)
    (hcontinues : op.endsFlow = false)
    (hreachable : m.frame.reachable = true)
    (hperform : perform r.effect (m.executing op) = onFrame act (m.executing op))
    (hact : act (m.executing op).frame = (.ok (), g)) :
    execute r m = (.ok (), (m.withFrame g).finished) := by
  rw [execute_run hr hreachable, executeReachable, hperform, onFrame, hact]
  simp only [hcontinues]
  rfl

theorem execute_pop
    (hreachable : m.frame.reachable = true)
    (hstack : m.frame.stack = v :: rest) :
    execute (.bare .pop) m =
      (.ok (), (m.withFrame ({ m.frame with stack := rest }.executing .pop)).finished) := by
  have hpop : Frame.popMany 1 (m.executing .pop).frame =
      (.ok (), { (m.executing .pop).frame with stack := rest }) :=
    Frame.popMany_one hreachable hstack
  exact execute_of_onFrame ⟨rfl, rfl, rfl, trivial⟩ rfl hreachable rfl hpop

/-- A constant of one slot is pushed. -/
theorem execute_load
    {constant : Constant}
    (hreachable : m.frame.reachable = true)
    (hroom : m.frame.exceeded? (m.frame.stack.length + 1) = none)
    (hnarrow : constant.value.isWide = false) :
    execute (.load constant) m =
      (.ok (), (m.withFrame ((m.frame.pushed constant.value).executing .ldc)).finished) := by
  have hpush : Frame.pushSized constant.value (m.executing .ldc).frame =
      (.ok (), (m.executing .ldc).frame.pushed constant.value) :=
    Frame.pushSized_of_narrow hreachable hroom hnarrow
  exact execute_of_onFrame ⟨rfl, rfl, rfl, trivial⟩ rfl hreachable rfl hpush

/-- What a local holds is pushed, in one slot. -/
theorem execute_iload
    (hreachable : m.frame.reachable = true)
    (hroom : m.frame.exceeded? (m.frame.stack.length + 1) = none)
    (index : UInt16) :
    execute (.slot .iload index) m =
      (.ok (), (m.withFrame
        (((m.frame.remarked (m.frame.marks.reading (index.toNat + 1))).pushed
          (Locals.read m.frame.locals index.toNat)).executing .iload)).finished) := by
  have hperform : perform (Record.slot .iload index).effect = onFrame (do
      let v ← Frame.getLocal index.toNat
      Frame.push v
      if false then
        Frame.push .top) :=
    rfl
  let f := (m.executing .iload).frame
  have hget := Frame.getLocal_run (f := f) hreachable index.toNat
  have hpush := Frame.push_run (f := f.remarked (f.marks.reading (index.toNat + 1)))
    (v := Locals.read m.frame.locals index.toNat) hreachable hroom
  refine execute_of_onFrame ⟨rfl, rfl, rfl, trivial⟩ rfl hreachable (congrFun hperform _) ?_
  exact (bind_of_run hget _).trans (bind_of_run hpush _)

/-- The top of the stack is written, with what that does to the neighbours. -/
theorem execute_istore
    (hreachable : m.frame.reachable = true)
    (hstack : m.frame.stack = v :: rest)
    (index : UInt16) :
    execute (.slot .istore index) m =
      (.ok (), (m.withFrame
        (({ m.frame with stack := rest }.writeLocal index.toNat v).executing
          .istore)).finished) := by
  have hperform : perform (Record.slot .istore index).effect = onFrame (do
      let v ← Frame.popWide 1
      Frame.setLocal index.toNat v) :=
    rfl
  let f := (m.executing .istore).frame
  have hpop := Frame.popWide_one (f := f) hreachable hstack
  have hset := Frame.setLocal_run (f := { f with stack := rest }) hreachable index.toNat v
  refine execute_of_onFrame ⟨rfl, rfl, rfl, trivial⟩ rfl hreachable (congrFun hperform _) ?_
  exact (bind_of_run hpop _).trans hset

/-- A local is written that a number was added to. -/
theorem execute_increment
    (hreachable : m.frame.reachable = true)
    (index : UInt16)
    (delta : Int32) :
    execute (.increment index delta) m =
      (.ok (), (m.withFrame
        ((m.frame.writeLocal index.toNat
          (incremented m.folding (Locals.read m.frame.locals index.toNat) delta)).executing
            .iinc)).finished) := by
  have hperform : perform (Record.increment index delta).effect (m.executing .iinc) =
      onFrame (do
        let v ← Frame.getLocal index.toNat
        Frame.setLocal index.toNat (incremented m.folding v delta)) (m.executing .iinc) :=
    rfl
  let f := (m.executing .iinc).frame
  have hget := Frame.getLocal_run (f := f) hreachable index.toNat
  have hset := Frame.setLocal_run (f := f.remarked (f.marks.reading (index.toNat + 1)))
    hreachable index.toNat (incremented m.folding (Locals.read m.frame.locals index.toNat) delta)
  rw [Frame.writeLocal_of_read] at hset
  exact execute_of_onFrame ⟨rfl, rfl, rfl, trivial⟩ rfl hreachable hperform
    ((bind_of_run hget _).trans hset)

/-- Records that succeed one after the other, and where they lead. -/
def Runs
    (m : Machine)
    (records : List Record)
    (n : Machine) :
    Prop :=
  m.Succeeds records ∧ m.after records = n

theorem runs_nil
    (m : Machine) :
    m.Runs [] m :=
  ⟨trivial, rfl⟩

/-- A record that succeeds comes before others. -/
theorem Runs.cons
    {r : Record}
    {records : List Record}
    {mid n : Machine}
    (hfirst : execute r m = (.ok (), mid))
    (hrest : mid.Runs records n) :
    m.Runs (r :: records) n := by
  obtain ⟨hsucceeds, hafter⟩ := hrest
  simp only [Runs, Succeeds, after, hfirst]
  exact ⟨⟨trivial, hsucceeds⟩, hafter⟩

end Machine
end SlotFlow
