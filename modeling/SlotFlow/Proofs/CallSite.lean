import Mathlib.Algebra.Ring.Nat
import SlotFlow.CallSite
import SlotFlow.Proofs.Frame.Success
import SlotFlow.Proofs.Machine.CallArgument

/-!
# Call sites

Looking at a call that is about to happen finds what the call then takes. The arguments are
found by walking up from the deepest of their slots, and the call pops their slots from the
top; both agree on where they lie. What was pushed for a call is found again, whatever lies
below.

Main definitions:

* `CallSite.offset`: where a parameter starts in the block of the arguments;
* `Fits`: values that are as wide as the parameters they are passed for;
* `Frame.pushValues`, `Frame.pushCall`: what is done before a call;
* `Frame.block`: the slots of values that were pushed one after the other.

Main statements:

* `CallSite.pick_getElem`: the walk finds each parameter at its offset;
* `CallSite.pick_block`: the walk finds what was pushed;
* `CallSite.receiver_popped`: the receiver is what is popped after the arguments;
* `Frame.pushCall_eq_ok`, `Frame.pushCall_isOk`: what pushing a call's operands comes to;
* `CallSite.sees_what_is_popped`: all of it.
-/

namespace SlotFlow

/-- Values that are as wide as the parameters they are passed for. -/
def Fits
    (values : List Value)
    (types : List FieldType) :
    Prop :=
  List.Forall₂ (fun v type => v.isWide = type.isWide) values types

theorem FieldType.size_pos
    (type : FieldType) :
    0 < type.size := by
  unfold size
  split <;> decide

theorem Value.length_cells
    {v : Value}
    {type : FieldType}
    (h : v.isWide = type.isWide) :
    v.cells.length = type.size := by
  rw [cells, FieldType.size, h]
  split <;> rfl

theorem Value.slots_cells
    (v : Value) :
    v.cells.map Value.slot = v.category.slots := by
  change (if v.isWide then [Value.top, v] else [v]).map Value.slot =
    if v.isWide then [Slot.empty, v.slot] else [v.slot]
  split <;> rfl

namespace Frame

variable {f g : Frame} {values : List Value} {types : List FieldType}

/-- The frame with slots popped off its stack. -/
def dropped
    (f : Frame)
    (count : Nat) :
    Frame :=
  { f with stack := f.stack.drop count }

/-- Pushes values in order, each with its second half if it is wide. -/
def pushValues : List Value → FrameM Unit
  | [] => pure ()
  | v :: rest => do
      pushSized v
      pushValues rest

/-- Pushes the receiver of a call and then its arguments. -/
def pushCall
    (receiver : Value)
    (values : List Value) :
    FrameM Unit := do
  push receiver
  pushValues values

/-- The slots of values that were pushed in order, top first. -/
def block : List Value → List Value
  | [] => []
  | v :: rest => block rest ++ v.cells

theorem length_block
    (hfits : Fits values types) :
    (block values).length = (types.map FieldType.size).sum := by
  induction hfits with
  | nil =>
      rfl
  | cons hwidth _ ih =>
      rw [block, List.length_append, ih, Value.length_cells hwidth, List.map_cons, List.sum_cons]
      exact Nat.add_comm _ _

/-- A receiver of one slot is pushed like an argument. -/
theorem pushValues_cons_of_narrow
    {receiver : Value}
    (hnarrow : receiver.isWide = false) :
    pushValues (receiver :: values) = pushCall receiver values := by
  funext f
  rw [pushValues, pushCall, run_bind, run_bind, pushSized, run_bind, hnarrow]
  rcases push receiver f with ⟨_ | _, g⟩ <;> rfl

theorem pushValues_exchanged
    (hpush : pushValues values f = (.ok (), g)) :
    Exchanged f 0 (block values) g := by
  induction values generalizing f with
  | nil =>
      cases hpush
      exact .refl _
  | cons v rest ih =>
      obtain ⟨_, mid, hfirst, hrest⟩ := exists_of_bind_eq_ok hpush
      exact (pushSized_exchanged hfirst).thenPush (ih hrest)

theorem pushValues_account
    {faulty : Fault → Prop}
    (hf : f.Ready)
    (values : List Value) :
    Account view f 0 ((block values).map Value.slot) faulty (fun _ _ => True)
      (pushValues values f) := by
  induction values generalizing f with
  | nil =>
      exact .unchanged hf ⟨rfl, rfl, rfl, rfl⟩ trivial
  | cons v rest ih =>
      rw [block, List.map_append, Value.slots_cells]
      apply Account.bind_push hf (pushSized_account hf v)
      intro _ mid _ hmid _
      exact ih hmid

/-- The operands of a call fit on the stack, or there is no room for all of them. -/
theorem pushCall_account
    (hf : f.Ready)
    (receiver : Value)
    (values : List Value) :
    Account view f 0 ((block values).map Value.slot ++ [receiver.slot]) (fun _ => False)
      (fun _ _ => True) (pushCall receiver values f) := by
  apply Account.bind_push hf (push_account hf receiver)
  intro _ mid _ hmid _
  exact pushValues_account hmid values

theorem depth_after_call
    (f : Frame)
    (receiver : Value)
    (values : List Value) :
    (view f).stack.length - 0 + ((block values).map Value.slot ++ [receiver.slot]).length =
      f.stack.length + 1 + (block values).length := by
  simp only [view, List.length_append, List.length_map, List.length_singleton]
  omega

/-- Pushing the operands of a call puts them on a stack that stays reachable. -/
theorem pushCall_eq_ok
    {receiver : Value}
    (hpush : pushCall receiver values f = (.ok (), g)) :
    g.reachable = true ∧
      f.exceeded? (f.stack.length + 1 + (block values).length) = none ∧
      g.stack = block values ++ receiver :: f.stack := by
  obtain ⟨_, mid, hfirst, hvalues⟩ := exists_of_bind_eq_ok hpush
  obtain ⟨hreachable, hroom, rfl⟩ := push_eq_ok hfirst
  have hf : f.Ready := ⟨hreachable, exceeded_of_ge hroom (Nat.le_succ _)⟩
  have haccount := pushCall_account hf receiver values
  rw [hpush] at haccount
  cases haccount with
  | done _ hfits hfollows _ =>
      rw [depth_after_call] at hfits
      exact ⟨hfollows.reachable.trans hreachable, hfits, (pushValues_exchanged hvalues).stack⟩

/-- The operands of a call can be pushed exactly if the frame is reachable and has room. -/
theorem pushCall_isOk
    {receiver : Value} :
    (pushCall receiver values f).1 = .ok () ↔
      f.reachable = true ∧
        f.exceeded? (f.stack.length + 1 + (block values).length) = none := by
  constructor
  · intro hok
    have hpush : pushCall receiver values f = (.ok (), (pushCall receiver values f).2) :=
      Prod.ext hok rfl
    obtain ⟨_, hroom, _⟩ := pushCall_eq_ok hpush
    obtain ⟨_, _, hfirst, _⟩ := exists_of_bind_eq_ok hpush
    exact ⟨(push_eq_ok hfirst).1, hroom⟩
  · rintro ⟨hreachable, hroom⟩
    have hf : f.Ready := ⟨hreachable, exceeded_of_ge hroom (by omega)⟩
    have haccount := pushCall_account hf receiver values
    generalize pushCall receiver values f = result at haccount
    cases haccount with
    | underflow hless =>
        exact absurd hless (Nat.not_lt_zero _)
    | fault _ himpossible =>
        exact himpossible.elim
    | overflow _ hlimit =>
        rw [depth_after_call, view, hroom] at hlimit
        cases hlimit
    | done =>
        rfl

/-- Popping a call's arguments takes their slots off the top. -/
theorem popDescriptor_run
    {descriptor : String}
    {d : MethodDescriptor}
    (hparse : MethodDescriptor.parse? descriptor = some d)
    (hreachable : f.reachable = true)
    (henough : d.argumentSize ≤ f.stack.length) :
    popDescriptor descriptor f = (.ok (), f.dropped d.argumentSize) := by
  rw [popDescriptor, run_bind, (slots_of_parse hparse).1]
  exact popMany_run hreachable henough

end Frame

namespace CallSite

variable {f : Frame} {descriptor : String} {d : MethodDescriptor} {types : List FieldType}
variable {values cells : List Value} {v : Value}

/-- Slots that the parameters before one take. -/
def offset
    (types : List FieldType)
    (index : Nat) :
    Nat :=
  ((types.take index).map FieldType.size).sum

theorem pick_cons
    (type : FieldType)
    (types : List FieldType)
    (v : Value)
    (cells : List Value) :
    pick (type :: types) (v :: cells) = v :: pick types ((v :: cells).drop type.size) :=
  rfl

/-- Where there are slots for all parameters the walk finds one value for each. -/
theorem pick_getElem
    (henough : (types.map FieldType.size).sum ≤ cells.length) :
    (pick types cells).length = types.length ∧
      ∀ i < types.length, (pick types cells)[i]? = cells[offset types i]? := by
  induction types generalizing cells with
  | nil =>
      exact ⟨rfl, fun i hi => absurd hi (Nat.not_lt_zero i)⟩
  | cons type types ih =>
      rw [List.map_cons, List.sum_cons] at henough
      have hsize := type.size_pos
      cases cells with
      | nil =>
          rw [List.length_nil] at henough
          omega
      | cons v cells =>
          have hrest : (types.map FieldType.size).sum ≤ ((v :: cells).drop type.size).length := by
            rw [List.length_drop]
            omega
          obtain ⟨hlength, hwalk⟩ := ih hrest
          rw [pick_cons, List.length_cons, List.length_cons, hlength]
          refine ⟨rfl, ?_⟩
          intro i hi
          cases i with
          | zero =>
              rfl
          | succ i =>
              rw [List.getElem?_cons_succ, hwalk i (Nat.lt_of_succ_lt_succ hi),
                List.getElem?_drop, offset, offset, List.take_succ_cons, List.map_cons,
                List.sum_cons]

/-- The walk finds the values that were pushed. -/
theorem pick_block
    (hfits : Fits values types) :
    pick types (Frame.block values).reverse = values := by
  induction hfits with
  | nil =>
      rfl
  | @cons v type values types hwidth _ ih =>
      have hcells : ∃ more, v.cells.reverse = v :: more := by
        rw [Value.cells]
        split <;> exact ⟨_, rfl⟩
      obtain ⟨more, hmore⟩ := hcells
      have hlength : (v :: more).length = type.size := by
        rw [← hmore, List.length_reverse, Value.length_cells hwidth]
      rw [Frame.block, List.reverse_append, hmore, List.cons_append, pick_cons,
        ← List.cons_append, ← hlength, List.drop_left, ih]

theorem ready_eq_some :
    ready? f descriptor = some d ↔
      MethodDescriptor.parse? descriptor = some d ∧ f.reachable = true ∧
        d.argumentSize ≤ f.stack.length := by
  simp [ready?, Option.filter_eq_some_iff]

/-- Arguments are found exactly where a reachable frame has slots for all of them. -/
theorem arguments_isSome :
    (arguments? f descriptor).isSome = true ↔
      f.reachable = true ∧
        ∃ d, MethodDescriptor.parse? descriptor = some d ∧ d.argumentSize ≤ f.stack.length := by
  rw [arguments?, Option.isSome_map, Option.isSome_iff_exists]
  constructor
  · rintro ⟨d, hready⟩
    obtain ⟨hparse, hreachable, henough⟩ := ready_eq_some.1 hready
    exact ⟨hreachable, d, hparse, henough⟩
  · rintro ⟨hreachable, d, hparse, henough⟩
    exact ⟨d, ready_eq_some.2 ⟨hparse, hreachable, henough⟩⟩

theorem arguments_eq_some
    (hparse : MethodDescriptor.parse? descriptor = some d) :
    arguments? f descriptor = some values ↔
      f.reachable = true ∧ d.argumentSize ≤ f.stack.length ∧
        pick d.parameters (f.stack.take d.argumentSize).reverse = values := by
  rw [arguments?, Option.map_eq_some_iff]
  constructor
  · rintro ⟨e, hready, hvalues⟩
    obtain ⟨hother, hreachable, henough⟩ := ready_eq_some.1 hready
    cases hparse.symm.trans hother
    exact ⟨hreachable, henough, hvalues⟩
  · rintro ⟨hreachable, henough, hvalues⟩
    exact ⟨d, ready_eq_some.2 ⟨hparse, hreachable, henough⟩, hvalues⟩

/-- Each argument lies in the block that is popped, at the offset of its parameter. -/
theorem arguments_getElem
    (hparse : MethodDescriptor.parse? descriptor = some d)
    (h : arguments? f descriptor = some values) :
    values.length = d.parameters.length ∧
      ∀ i < d.parameters.length,
        values[i]? = (f.stack.take d.argumentSize).reverse[offset d.parameters i]? := by
  obtain ⟨_, henough, rfl⟩ := (arguments_eq_some hparse).1 h
  apply pick_getElem
  rw [List.length_reverse, List.length_take_of_le henough]
  exact Nat.le_refl _

theorem receiver_eq_some
    (hparse : MethodDescriptor.parse? descriptor = some d) :
    receiver? f descriptor = some v ↔
      f.reachable = true ∧ f.stack[d.argumentSize]? = some v := by
  rw [receiver?, Option.bind_eq_some_iff]
  constructor
  · rintro ⟨e, hready, hpeek⟩
    obtain ⟨hother, hreachable, _⟩ := ready_eq_some.1 hready
    cases hparse.symm.trans hother
    exact ⟨hreachable, hpeek⟩
  · rintro ⟨hreachable, hcell⟩
    obtain ⟨hbelow, _⟩ := List.getElem?_eq_some_iff.1 hcell
    exact ⟨d, ready_eq_some.2 ⟨hparse, hreachable, Nat.le_of_lt hbelow⟩, hcell⟩

/-- A receiver is found exactly where there is one more slot below the arguments. -/
theorem receiver_isSome :
    (receiver? f descriptor).isSome = true ↔
      f.reachable = true ∧
        ∃ d, MethodDescriptor.parse? descriptor = some d ∧ d.argumentSize < f.stack.length := by
  rw [Option.isSome_iff_exists]
  constructor
  · rintro ⟨v, hv⟩
    obtain ⟨d, hready, _⟩ := Option.bind_eq_some_iff.1 hv
    obtain ⟨hparse, _⟩ := ready_eq_some.1 hready
    obtain ⟨hreachable, hcell⟩ := (receiver_eq_some hparse).1 hv
    obtain ⟨hbelow, _⟩ := List.getElem?_eq_some_iff.1 hcell
    exact ⟨hreachable, d, hparse, hbelow⟩
  · rintro ⟨hreachable, d, hparse, hbelow⟩
    exact ⟨_, (receiver_eq_some hparse).2 ⟨hreachable, List.getElem?_eq_getElem hbelow⟩⟩

/-- The receiver is what is popped next once the arguments are popped. -/
theorem receiver_popped
    (hparse : MethodDescriptor.parse? descriptor = some d)
    (h : receiver? f descriptor = some v) :
    Frame.popDescriptor descriptor f = (.ok (), f.dropped d.argumentSize) ∧
      Frame.pop (f.dropped d.argumentSize) = (.ok v, f.dropped (d.argumentSize + 1)) := by
  obtain ⟨hreachable, hcell⟩ := (receiver_eq_some hparse).1 h
  obtain ⟨hbelow, hv⟩ := List.getElem?_eq_some_iff.1 hcell
  have hstack : (f.dropped d.argumentSize).stack = v :: f.stack.drop (d.argumentSize + 1) := by
    rw [← hv]
    exact List.drop_eq_getElem_cons hbelow
  exact ⟨Frame.popDescriptor_run hparse hreachable (Nat.le_of_lt hbelow),
    Frame.pop_run (f := f.dropped d.argumentSize) hreachable hstack⟩

/-- A call of a constructor completes the construction of the receiver that was found. -/
theorem perform_constructor_call
    {m : Machine}
    (hparse : MethodDescriptor.parse? descriptor = some d)
    (h : receiver? m.frame descriptor = some v)
    (owner : String) :
    m.perform (.call (.constructed owner) descriptor) =
      (do
        Machine.completeConstruction v owner
        Machine.onFrame (Frame.pushDescriptor descriptor none) : MachineM Unit)
        { m with frame := m.frame.dropped (d.argumentSize + 1) } := by
  obtain ⟨hreachable, hcell⟩ := (receiver_eq_some hparse).1 h
  obtain ⟨hbelow, _⟩ := List.getElem?_eq_some_iff.1 hcell
  let popped : Machine := { m with frame := m.frame.dropped d.argumentSize }
  have hpop : Machine.onFrame Frame.pop popped =
      (.ok v, { m with frame := m.frame.dropped (d.argumentSize + 1) }) := by
    rw [Machine.onFrame, (receiver_popped hparse h).2]
  have hreceiver : Machine.popReceiver (.constructed owner) popped =
      Machine.completeConstruction v owner
        { m with frame := m.frame.dropped (d.argumentSize + 1) } := by
    rw [Machine.popReceiver, run_bind, hpop]
  have hcall : m.perform (.call (.constructed owner) descriptor) =
      Machine.answer (.constructed owner) descriptor popped :=
    Machine.perform_call (slots_of_parse hparse).1 hreachable (Nat.le_of_lt hbelow)
  rw [hcall, Machine.answer]
  change (Machine.popReceiver (.constructed owner) >>= _) popped = _
  rw [run_bind, hreceiver, run_bind]

/-- The operands that were pushed for a call are found again. -/
theorem found_of_pushed
    {g : Frame}
    (hparse : MethodDescriptor.parse? descriptor = some d)
    (hfits : Fits values d.parameters)
    (hpush : Frame.pushCall v values f = (.ok (), g)) :
    arguments? g descriptor = some values ∧ receiver? g descriptor = some v ∧
      g.stack.drop (d.argumentSize + 1) = f.stack := by
  obtain ⟨hreachable, _, hstack⟩ := Frame.pushCall_eq_ok hpush
  have hlength : (Frame.block values).length = d.argumentSize := Frame.length_block hfits
  have htake : g.stack.take d.argumentSize = Frame.block values := by
    rw [hstack, ← hlength, List.take_left]
  have hdrop : g.stack.drop d.argumentSize = v :: f.stack := by
    rw [hstack, ← hlength, List.drop_left]
  refine ⟨(arguments_eq_some hparse).2 ⟨hreachable, ?_, ?_⟩,
    (receiver_eq_some hparse).2 ⟨hreachable, ?_⟩, ?_⟩
  · rw [hstack, List.length_append, hlength]
    exact Nat.le_add_right _ _
  · rw [htake, pick_block hfits]
  · rw [← List.head?_drop, hdrop]
    rfl
  · rw [← List.tail_drop, hdrop]
    rfl

/--
Looking at a call finds what the call pops. Arguments are found exactly where a reachable
frame has slots for all of them; the call pops these slots and no others, and each argument
is in the slot at the offset of its parameter. A receiver is found exactly where there is one
more slot, and it is the value that is popped next and whose construction a constructor
completes. And the operands of a call are found again wherever they were pushed, where a
receiver of one slot may be pushed as the arguments are.
-/
theorem sees_what_is_popped
    (f : Frame)
    (descriptor : String) :
    ((arguments? f descriptor).isSome = true ↔
      f.reachable = true ∧
        ∃ d, MethodDescriptor.parse? descriptor = some d ∧ d.argumentSize ≤ f.stack.length) ∧
    ((receiver? f descriptor).isSome = true ↔
      f.reachable = true ∧
        ∃ d, MethodDescriptor.parse? descriptor = some d ∧ d.argumentSize < f.stack.length) ∧
    ∀ d, MethodDescriptor.parse? descriptor = some d →
      (∀ args, arguments? f descriptor = some args →
        Frame.popDescriptor descriptor f = (.ok (), f.dropped d.argumentSize) ∧
        args.length = d.parameters.length ∧
        ∀ i < d.parameters.length,
          args[i]? = (f.stack.take d.argumentSize).reverse[offset d.parameters i]?) ∧
      (∀ v, receiver? f descriptor = some v →
        Frame.pop (f.dropped d.argumentSize) = (.ok v, f.dropped (d.argumentSize + 1)) ∧
        ∀ (m : Machine) (owner : String), m.frame = f →
          m.perform (.call (.constructed owner) descriptor) =
            (do
              Machine.completeConstruction v owner
              Machine.onFrame (Frame.pushDescriptor descriptor none) : MachineM Unit)
              { m with frame := f.dropped (d.argumentSize + 1) }) ∧
      ∀ (receiver : Value) (values : List Value), Fits values d.parameters →
        ((Frame.pushCall receiver values f).1 = .ok () ↔
          f.reachable = true ∧
            f.exceeded? (f.stack.length + 1 + d.argumentSize) = none) ∧
        (receiver.isWide = false →
          Frame.pushValues (receiver :: values) f = Frame.pushCall receiver values f) ∧
        ∀ g, Frame.pushCall receiver values f = (.ok (), g) →
          arguments? g descriptor = some values ∧ receiver? g descriptor = some receiver ∧
            g.stack.drop (d.argumentSize + 1) = f.stack := by
  refine ⟨arguments_isSome, receiver_isSome, fun d hparse => ⟨?found, ?popped, ?pushed⟩⟩
  case found =>
    intro args hargs
    obtain ⟨hreachable, henough, _⟩ := (arguments_eq_some hparse).1 hargs
    exact ⟨Frame.popDescriptor_run hparse hreachable henough, arguments_getElem hparse hargs⟩
  case popped =>
    intro v hv
    refine ⟨(receiver_popped hparse hv).2, ?_⟩
    rintro m owner rfl
    exact perform_constructor_call hparse hv owner
  case pushed =>
    intro receiver values hfits
    refine ⟨?_, fun hnarrow => by rw [Frame.pushValues_cons_of_narrow hnarrow],
      fun g hpush => found_of_pushed hparse hfits hpush⟩
    have hlength : (Frame.block values).length = d.argumentSize := Frame.length_block hfits
    rw [← hlength]
    exact Frame.pushCall_isOk

end CallSite
end SlotFlow
