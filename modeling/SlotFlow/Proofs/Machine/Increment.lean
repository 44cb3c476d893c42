import SlotFlow.Proofs.Machine.Instruction

/-!
# Adding a number to a local

A number is added to a local at once, or in steps: the local is loaded, the number pushed, the
two are added on the stack, and the sum is stored. The sum is folded in different places, but
both ways leave the same cell, and with it the same neighbours.

Main definitions:

* `Value.MayBeInt`: values that arithmetic of ints folds without a report;
* `Machine.addition`: the records of the steps;
* `Machine.strained`: a machine whose stack was deeper on the way.

Main statements:

* `folded_add`: both ways of folding give one value;
* `execute_iadd`: the sum of what was loaded and a number;
* `addition_runs`: what the steps leave;
* `increment_agrees`: adding at once and adding in steps.
-/

namespace SlotFlow

/-- Nothing is known of the value, or it is a known int. -/
def Value.MayBeInt
    (v : Value) :
    Prop :=
  v.literal = .unknown ∨ ∃ n, v.literal = .int n

namespace Machine

variable {m : Machine} {v : Value} {rest : List Value}

/--
The sum that is folded on the stack is the one that an increment writes: it wraps at the ends of
the range where both numbers are known, and else it is any int.
-/
theorem folded_add
    (hv : v.MayBeInt)
    (folding : Bool)
    (delta : Int32)
    (f : Frame) :
    ∃ l, folded folding (Fold.fold2 .iadd v.literal (.int delta)) f = (.ok l, f) ∧
      Value.ofLiteral .int l = incremented folding v delta := by
  cases folding with
  | false =>
      exact ⟨.unknown, rfl, rfl⟩
  | true =>
      unfold incremented
      rcases hv with hunknown | ⟨n, hint⟩
      · rw [hunknown]
        exact ⟨.unknown, rfl, rfl⟩
      · rw [hint]
        exact ⟨.int (n + delta), rfl, rfl⟩

theorem incremented_narrow
    (folding : Bool)
    (v : Value)
    (delta : Int32) :
    (incremented folding v delta).isWide = false := by
  unfold incremented
  split <;> rfl

/-- A known number on top of a value that may be an int is added to it. -/
theorem execute_iadd
    {delta : Int32}
    (hreachable : m.frame.reachable = true)
    (hstack : m.frame.stack = .int delta :: v :: rest)
    (hroom : m.frame.exceeded? (rest.length + 1) = none)
    (hv : v.MayBeInt) :
    execute (.bare .iadd) m =
      (.ok (), (m.withFrame
        (({ m.frame with stack := rest }.pushed (incremented m.folding v delta)).executing
          .iadd)).finished) := by
  have hperform : perform (Record.bare .iadd).effect (m.executing .iadd) =
      onFrame (do
        let right ← Frame.popWide 1
        let left ← Frame.popWide 1
        let l ← folded m.folding (Fold.fold2 .iadd left.literal right.literal)
        Frame.pushSized (.ofLiteral .int l)) (m.executing .iadd) :=
    rfl
  let f := (m.executing .iadd).frame
  have hright := Frame.popWide_one (f := f) hreachable hstack
  have hleft := Frame.popWide_one (f := { f with stack := v :: rest }) hreachable rfl
  obtain ⟨l, hfolded, hsum⟩ := folded_add hv m.folding delta { f with stack := rest }
  have hpush := Frame.pushSized_of_narrow (f := { f with stack := rest }) hreachable hroom
    (incremented_narrow m.folding v delta)
  rw [← hsum] at hpush ⊢
  refine execute_of_onFrame ⟨rfl, rfl, rfl, trivial⟩ rfl hreachable hperform ?_
  rw [bind_of_run hright, bind_of_run hleft]
  exact (bind_of_run hfolded _).trans hpush

/-- The records that add a number to a local in steps. -/
def addition
    (index : UInt16)
    (delta : Int32) :
    List Record :=
  [.slot .iload index, .load (.int delta), .bare .iadd, .slot .istore index]

/-- The machine after an instruction, if its stack has been as deep as that on the way. -/
def strained
    (m : Machine)
    (op : Opcode)
    (depth : Nat) :
    Machine :=
  { m with frame := { m.frame with
      maxStack := max m.frame.maxStack depth
      current := some op } }

/-- The steps leave what the increment writes. -/
theorem addition_runs
    {index : UInt16}
    (hreachable : m.frame.reachable = true)
    (hlocal : (Locals.read m.frame.locals index.toNat).MayBeInt)
    (hsecond : m.frame.exceeded? (m.frame.stack.length + 2) = none)
    (delta : Int32) :
    m.Runs (addition index delta)
      ((execute (.increment index delta) m).2.strained .istore (m.frame.stack.length + 2)) := by
  have hfirst : m.frame.exceeded? (m.frame.stack.length + 1) = none :=
    Frame.exceeded_of_ge hsecond (Nat.le_succ _)
  let cell := Locals.read m.frame.locals index.toNat
  let sum := incremented m.folding cell delta
  let seen := m.frame.remarked (m.frame.marks.reading (index.toNat + 1))
  let loaded := (seen.pushed cell).executing .iload
  let pushed := (loaded.pushed (.int delta)).executing .ldc
  let added := ({ pushed with stack := m.frame.stack }.pushed sum).executing .iadd
  let stored := ({ added with stack := m.frame.stack }.writeLocal index.toNat sum).executing .istore
  have hload : execute (.slot .iload index) m = (.ok (), (m.withFrame loaded).finished) :=
    execute_iload hreachable hfirst index
  have hpush : execute (.load (.int delta)) (m.withFrame loaded).finished =
      (.ok (), (m.withFrame pushed).finished) :=
    execute_load (m := (m.withFrame loaded).finished) hreachable hsecond rfl
  have hadd : execute (.bare .iadd) (m.withFrame pushed).finished =
      (.ok (), (m.withFrame added).finished) :=
    execute_iadd (m := (m.withFrame pushed).finished) hreachable rfl hfirst hlocal
  have hstore : execute (.slot .istore index) (m.withFrame added).finished =
      (.ok (), (m.withFrame stored).finished) :=
    execute_istore (m := (m.withFrame added).finished) hreachable rfl index
  refine Runs.cons hload (Runs.cons hpush (Runs.cons hadd (Runs.cons hstore ⟨trivial, ?_⟩)))
  -- what is left to compare are the marks
  have hdepth :
      max (max (max m.frame.maxStack (m.frame.stack.length + 1)) (m.frame.stack.length + 2))
          (m.frame.stack.length + 1) =
        max m.frame.maxStack (m.frame.stack.length + 2) := by
    omega
  have hstored : stored = { seen.writeLocal index.toNat sum with
      maxStack := max m.frame.maxStack (m.frame.stack.length + 2)
      current := some .istore } := by
    rw [← hdepth]
    rfl
  rw [execute_increment hreachable, hstored, Frame.writeLocal_of_read]
  rfl

/--
A number that is added to a local at once leaves the locals that adding it in steps leaves, and
the same stack, reachability, mark of locals, created objects and pending labels, as it leaves
everything but the mark of the stack and the name of the last instruction. Both ways succeed
wherever control can be, if the local may be an int and there is room for two more slots.
-/
theorem increment_agrees
    {index : UInt16}
    (hreachable : m.frame.reachable = true)
    (hlocal : (Locals.read m.frame.locals index.toNat).MayBeInt)
    (hroom : ∀ limit, m.frame.limit = some limit → m.frame.stack.length + 2 ≤ limit)
    (delta : Int32) :
    (execute (.increment index delta) m).1 = .ok () ∧
      m.Succeeds (addition index delta) ∧
      m.after (addition index delta) =
        (execute (.increment index delta) m).2.strained .istore (m.frame.stack.length + 2) ∧
      (m.after (addition index delta)).frame.locals =
        Locals.write m.frame.locals index.toNat
          (incremented m.folding (Locals.read m.frame.locals index.toNat) delta) := by
  have hincrement := execute_increment hreachable index delta
  obtain ⟨hsucceeds, hafter⟩ :=
    addition_runs hreachable hlocal (Frame.exceeded_eq_none.2 hroom) delta
  refine ⟨congrArg Prod.fst hincrement, hsucceeds, hafter, ?_⟩
  rw [hafter, hincrement]
  rfl

/-- A machine with the greatest int, and a long behind it, where the stack may hold two slots. -/
def brimming : Machine where
  frame :=
    { Frame.empty (some 2) with
      locals := [.int 2147483647, .long 1, .top]
      maxLocals := 3 }
  owner := "A"
  folding := true
  pending := [⟨7⟩]
  created := []
  lastSite := 0

/--
In steps as well, one more than the greatest int is the least, and a long is lost whose second
half a number is added to.
-/
theorem increment_agrees_brimming :
    brimming.Succeeds (addition 0 1) ∧
      (brimming.after (addition 0 1)).frame.locals = [.int (-2147483648), .long 1, .top] ∧
      brimming.Succeeds (addition 2 (-5)) ∧
      (brimming.after (addition 2 (-5))).frame.locals =
        [.int 2147483647, .top, .unknown .int] := by
  have hroom :
      ∀ limit, brimming.frame.limit = some limit → brimming.frame.stack.length + 2 ≤ limit := by
    decide
  obtain ⟨_, hfirst, _, hwrapped⟩ :=
    @increment_agrees brimming 0 rfl (.inr ⟨_, rfl⟩) hroom 1
  obtain ⟨_, hsecond, _, hlost⟩ :=
    @increment_agrees brimming 2 rfl (.inl rfl) hroom (-5)
  exact ⟨hfirst, hwrapped.trans (by decide), hsecond, hlost.trans (by decide)⟩

end Machine
end SlotFlow
