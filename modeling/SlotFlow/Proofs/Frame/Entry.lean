import Mathlib.Order.Basic
import SlotFlow.Proofs.CallSite
import SlotFlow.Proofs.Frame.Locals

/-!
# The layout of the entry frame

The frame at the start of a method is made by writing the receiver and the parameters one
after the other. A frame record with their types lays the same slots out, and so does
pushing them in order. A write to the first slot past the end of paired locals finds no
neighbour to empty, so it appends what a push would put on a stack.

Main definitions:

* `FieldType.verificationType`: how a frame record names a type;
* `Method.entryTypes`: what a frame record at the start of a method would list;
* `Method.parameterSlot`: where a parameter starts.

Main statements:

* `Frame.expand_eq`: what a frame record lays out;
* `Frame.writeParameters_at_end`: what writing parameters lays out;
* `Frame.pushValues_run`: what pushing values lays out;
* `Frame.entry_layout`: the three agree on the entry frame of every method.
-/

namespace SlotFlow

/-- How a frame record names a type; integers that are narrower than an int are ints. -/
def FieldType.verificationType : FieldType → VerificationType
  | .boolean | .byte | .char | .short | .int => .int
  | .float => .float
  | .long => .long
  | .double => .double
  | .object name => .object name
  | .array descriptor => .object descriptor

/-- The value of which a frame record tells the type. -/
def VerificationType.value
    (type : VerificationType) :
    Value :=
  .unknown (.ofVerificationType type)

/-- The value of which a parameter's type tells the category. -/
def FieldType.value
    (type : FieldType) :
    Value :=
  .unknown (.ofFieldType type)

theorem FieldType.value_verificationType
    (type : FieldType) :
    type.verificationType.value = type.value := by
  cases type <;> rfl

theorem FieldType.isWide_value
    (type : FieldType) :
    type.value.isWide = type.isWide := by
  cases type <;> rfl

theorem VerificationType.isWide_value
    (type : VerificationType) :
    type.value.isWide = type.isWide := by
  cases type <;> rfl

theorem Value.reverse_cells
    (v : Value) :
    v.cells.reverse = if v.isWide then [v, .top] else [v] := by
  rw [cells]
  split <;> rfl

/-- Unknown values of the types of parameters are as wide as these. -/
theorem fits_values
    (types : List FieldType) :
    Fits (types.map FieldType.value) types := by
  induction types with
  | nil =>
      exact .nil
  | cons type types ih =>
      exact .cons type.isWide_value ih

namespace Locals

variable {cells : List Value}

/-- Locals are told by their number and by what is read of them. -/
theorem ext_read
    {other : List Value}
    (hlength : cells.length = other.length)
    (hread : ∀ j, read cells j = read other j) :
    cells = other := by
  apply List.ext_getElem hlength
  intro j hj hj'
  have hcell := hread j
  rwa [read, read, List.getElem?_eq_getElem hj, List.getElem?_eq_getElem hj'] at hcell

theorem read_cells
    (v : Value)
    (j : Nat) :
    read v.cells.reverse j = if j = 0 then v else .top := by
  rw [Value.reverse_cells, read]
  cases j with
  | zero =>
      split <;> rfl
  | succ j =>
      split <;> cases j <;> rfl

/-- A write to the first slot past the end of paired locals appends the slots of the value. -/
theorem write_at_end
    (h : Paired cells)
    (v : Value) :
    write cells cells.length v = cells ++ v.cells.reverse := by
  have hpast (j : Nat) (hj : cells.length ≤ j) : read cells j = .top := by
    rw [read, List.getElem?_eq_none hj]
    rfl
  -- the last local is not wide, so nothing before the end loses its second half
  have hlast (j : Nat) : ¬ (j + 1 = cells.length ∧ (read cells j).isWide = true) := by
    rintro ⟨hj, hwide⟩
    have hnext := (paired_iff.1 h j hwide).1
    omega
  apply ext_read
  · rw [length_write, List.length_append, Value.reverse_cells]
    split <;> simp
  · intro j
    rw [read_write, if_neg (hlast j), hpast cells.length (Nat.le_refl _), read_append,
      read_cells]
    rcases Nat.lt_or_ge j cells.length with hj | hj
    · have hnext : j ≠ cells.length + 1 := by omega
      simp [hj, Nat.ne_of_lt hj, hnext]
    · have hfirst : j - cells.length = 0 ↔ j = cells.length := by omega
      simp [hpast j hj, hfirst, Nat.not_lt.2 hj]

end Locals

namespace Frame

variable {f : Frame}

theorem reverse_block_cons
    (v : Value)
    (rest : List Value) :
    (block (v :: rest)).reverse = v.cells.reverse ++ (block rest).reverse := by
  rw [block, List.reverse_append]

/-- A frame record lays out what is pushed for its types. -/
theorem expand_eq
    (types : List VerificationType) :
    expand types = (block (types.map VerificationType.value)).reverse := by
  induction types with
  | nil =>
      rfl
  | cons type types ih =>
      rw [expand] at ih
      rw [List.map_cons, reverse_block_cons, Value.reverse_cells, type.isWide_value, ← ih,
        expand, List.flatMap_cons]
      rfl

/-- Pushing values on a reachable frame without a stack limit puts their slots on it. -/
theorem pushValues_run
    (hreachable : f.reachable = true)
    (hfree : f.limit = none)
    (values : List Value) :
    ∃ g, pushValues values f = (.ok (), g) ∧ g.stack = block values ++ f.stack := by
  have hroom (depth : Nat) : f.exceeded? depth = none := by
    rw [exceeded?, hfree]
    rfl
  have haccount : Account view f 0 ((block values).map Value.slot) (fun _ => False)
      (fun _ _ => True) (pushValues values f) :=
    pushValues_account ⟨hreachable, hroom _⟩ values
  rcases hpush : pushValues values f with ⟨result, g⟩
  rw [hpush] at haccount
  cases haccount with
  | underflow hless =>
      exact absurd hless (Nat.not_lt_zero _)
  | fault _ himpossible =>
      exact himpossible.elim
  | overflow _ hlimit =>
      rw [view, hroom] at hlimit
      cases hlimit
  | done =>
      exact ⟨g, rfl, (pushValues_exchanged hpush).stack⟩

/-- A frame of which only locals were written so far, with a mark that tells their number. -/
structure Filled
    (f : Frame) : Prop where
  reachable : f.reachable = true
  stack : f.stack = []
  unpushed : f.maxStack = 0
  paired : Locals.Paired f.locals
  marked : f.maxLocals = f.locals.length

theorem filled_empty
    (limit : Option Nat) :
    (empty limit).Filled where
  reachable := rfl
  stack := rfl
  unpushed := rfl
  paired := nofun
  marked := rfl

/-- The frame with the slots of a value after its locals. -/
def appended
    (f : Frame)
    (v : Value) :
    Frame :=
  f.writeLocal f.locals.length v

theorem appended_locals
    (h : f.Filled)
    (v : Value) :
    (f.appended v).locals = f.locals ++ v.cells.reverse :=
  Locals.write_at_end h.paired v

theorem Filled.appended
    (h : f.Filled)
    (v : Value) :
    (f.appended v).Filled where
  reachable := h.reachable
  stack := h.stack
  unpushed := h.unpushed
  paired := h.paired.write _ v
  marked := by
    have hgrows : f.locals.length ≤ (f.appended v).locals.length := by
      simp [appended_locals h]
    change max f.maxLocals (f.appended v).locals.length = _
    rw [h.marked]
    exact Nat.max_eq_right hgrows

/-- Writing parameters after the locals appends what is pushed for their types. -/
theorem writeParameters_at_end
    (h : f.Filled)
    (types : List FieldType) :
    let g := f.writeParameters f.locals.length types
    g.Filled ∧ g.locals = f.locals ++ (block (types.map FieldType.value)).reverse := by
  induction types generalizing f with
  | nil =>
      exact ⟨h, (List.append_nil _).symm⟩
  | cons type types ih =>
      have hnext : f.locals.length + type.size = (f.appended type.value).locals.length := by
        rw [appended_locals h, List.length_append, List.length_reverse,
          Value.length_cells type.isWide_value]
      obtain ⟨hfilled, hlocals⟩ := ih (h.appended type.value)
      have hblock : (f.appended type.value).locals ++
          (block (types.map FieldType.value)).reverse =
          f.locals ++ (block ((type :: types).map FieldType.value)).reverse := by
        rw [appended_locals h, List.append_assoc, List.map_cons, reverse_block_cons]
      simp only [writeParameters]
      rw [hnext]
      exact ⟨hfilled, hlocals.trans hblock⟩

/-- A parameter starts after the slots of the earlier ones, and its second half follows it. -/
theorem parameter_at
    {types : List FieldType}
    {index : Nat}
    {type : FieldType}
    (htype : types[index]? = some type)
    (before : List Value) :
    let cells := before ++ (block (types.map FieldType.value)).reverse
    let slot := before.length + CallSite.offset types index
    cells[slot]? = some type.value ∧ (type.isWide = true → cells[slot + 1]? = some .top) := by
  induction types generalizing index before with
  | nil =>
      cases htype
  | cons first types ih =>
      rw [List.map_cons, reverse_block_cons]
      cases index with
      | zero =>
          cases htype
          rw [Value.reverse_cells, type.isWide_value]
          constructor
          · split <;> simp [CallSite.offset]
          · intro hwide
            simp [hwide, CallSite.offset]
      | succ index =>
          have hslot : before.length + CallSite.offset (first :: types) (index + 1) =
              (before ++ first.value.cells.reverse).length + CallSite.offset types index := by
            rw [List.length_append, List.length_reverse, Value.length_cells first.isWide_value,
              Nat.add_assoc]
            rfl
          rw [hslot, ← List.append_assoc]
          exact ih htype _

end Frame

namespace Method

/-- What a frame record at the start of a method lists for the receiver, if there is one. -/
def receiverTypes
    (m : Method) :
    List VerificationType :=
  if m.isStatic then []
  else if m.isConstructor then [.uninitializedThis]
  else [.object m.owner]

/-- What a frame record at the start of a method lists. -/
def entryTypes
    (m : Method)
    (d : MethodDescriptor) :
    List VerificationType :=
  m.receiverTypes ++ d.parameters.map FieldType.verificationType

/-- Slots that the receiver takes. -/
def receiverSize
    (m : Method) :
    Nat :=
  if m.isStatic then 0 else 1

/-- The slot in which a parameter starts. -/
def parameterSlot
    (m : Method)
    (d : MethodDescriptor)
    (index : Nat) :
    Nat :=
  m.receiverSize + CallSite.offset d.parameters index

/-- The values of the receiver, if there is one, and of the parameters. -/
def entryValues
    (m : Method)
    (d : MethodDescriptor) :
    List Value :=
  (m.entryTypes d).map VerificationType.value

theorem values_receiverTypes
    (m : Method) :
    m.receiverTypes.map VerificationType.value =
      if m.isStatic then [] else [Frame.receiver m] := by
  unfold receiverTypes Frame.receiver
  split
  · rfl
  split <;> rfl

theorem entryValues_eq
    (m : Method)
    (d : MethodDescriptor) :
    m.entryValues d =
      (if m.isStatic then [] else [Frame.receiver m]) ++ d.parameters.map FieldType.value := by
  rw [entryValues, entryTypes, List.map_append, List.map_map, values_receiverTypes]
  congr 2
  funext type
  exact type.value_verificationType

end Method

namespace Frame

variable {m : Method} {d : MethodDescriptor}

theorem cells_receiver
    (m : Method) :
    (receiver m).cells = [receiver m] := by
  have hnarrow : (receiver m).isWide = false := by
    unfold receiver
    split <;> rfl
  rw [Value.cells, hnarrow]
  rfl

/-- The slots of the receiver, if there is one, and then those of the parameters. -/
def entryLocals
    (m : Method)
    (d : MethodDescriptor) :
    List Value :=
  (if m.isStatic then [] else [receiver m]) ++ (block (d.parameters.map FieldType.value)).reverse

theorem reverse_block_entryValues
    (m : Method)
    (d : MethodDescriptor) :
    (block (m.entryValues d)).reverse = entryLocals m d := by
  rw [m.entryValues_eq, entryLocals]
  split
  · rfl
  · rw [List.singleton_append, reverse_block_cons, cells_receiver]
    rfl

theorem length_entryLocals
    (m : Method)
    (d : MethodDescriptor) :
    (entryLocals m d).length = m.receiverSize + d.argumentSize := by
  rw [entryLocals, List.length_append, List.length_reverse, length_block (fits_values _)]
  unfold Method.receiverSize
  split <;> rfl

theorem entryLocals_parameter
    {index : Nat}
    {type : FieldType}
    (htype : d.parameters[index]? = some type) :
    (entryLocals m d)[m.parameterSlot d index]? = some type.value ∧
      (type.isWide = true →
        (entryLocals m d)[m.parameterSlot d index + 1]? = some .top) := by
  have hplace := parameter_at htype (if m.isStatic then [] else [receiver m])
  have hsize : (if m.isStatic then [] else [receiver m]).length = m.receiverSize := by
    unfold Method.receiverSize
    split <;> rfl
  rw [hsize] at hplace
  exact hplace

/-- The frame at the start of a method whose descriptor can be read. -/
theorem entry_eq_ok
    (h : MethodDescriptor.parse? m.descriptor = some d)
    (limit : Option Nat) :
    ∃ f, entry m limit = .ok f ∧ f.Filled ∧ f.locals = entryLocals m d := by
  unfold entry
  rw [h]
  simp only
  by_cases hstatic : m.isStatic = true
  · rw [if_pos hstatic]
    obtain ⟨hfilled, hlocals⟩ := writeParameters_at_end (filled_empty limit) d.parameters
    refine ⟨_, rfl, hfilled, hlocals.trans ?_⟩
    rw [entryLocals, if_pos hstatic]
    rfl
  · rw [if_neg hstatic]
    have hempty := filled_empty limit
    have hreceiver : ((empty limit).appended (receiver m)).locals = [receiver m] := by
      rw [appended_locals hempty, cells_receiver]
      rfl
    obtain ⟨hfilled, hlocals⟩ :=
      writeParameters_at_end (hempty.appended (receiver m)) d.parameters
    rw [hreceiver] at hfilled hlocals
    refine ⟨_, rfl, hfilled, hlocals.trans ?_⟩
    rw [entryLocals, if_neg hstatic]

/-- Every frame at the start of a method is one of which only locals were written. -/
theorem filled_of_entry
    {limit : Option Nat}
    {f : Frame}
    (h : entry m limit = .ok f) :
    f.Filled := by
  cases hparse : MethodDescriptor.parse? m.descriptor with
  | none =>
      rw [entry, hparse] at h
      cases h
  | some d =>
      obtain ⟨g, hentry, hfilled, _⟩ := entry_eq_ok hparse limit
      rw [h] at hentry
      cases hentry
      exact hfilled

/--
Every method whose descriptor can be read has an entry frame, whatever the stack limit. Its
locals are what a frame record lays out for the types of the receiver, if there is one, and
of the parameters, and what pushing unknown values of these types in order puts on an empty
stack without a limit. A parameter starts after the receiver and the slots of the earlier
parameters, with its second half after it. The stack is empty, and the mark of the locals
counts the receiver and the argument slots.
-/
theorem entry_layout
    (h : MethodDescriptor.parse? m.descriptor = some d)
    (limit : Option Nat) :
    ∃ f, entry m limit = .ok f ∧ f.reachable = true ∧ f.stack = [] ∧
      (∀ g : Frame, ∃ r, resetTo (m.entryTypes d) [] g = (.ok (), r) ∧
        r.locals = f.locals ∧ r.stack = f.stack) ∧
      (∀ g : Frame, g.reachable = true → g.limit = none → g.stack = [] →
        ∃ r, pushValues (m.entryValues d) g = (.ok (), r) ∧ r.stack.reverse = f.locals) ∧
      (m.isStatic = false → f.locals[0]? = some (receiver m)) ∧
      (∀ index type, d.parameters[index]? = some type →
        f.locals[m.parameterSlot d index]? = some type.value ∧
        (type.isWide = true → f.locals[m.parameterSlot d index + 1]? = some .top)) ∧
      f.locals.length = m.receiverSize + d.argumentSize ∧
      f.maxLocals = m.receiverSize + d.argumentSize := by
  obtain ⟨f, hentry, hfilled, hlocals⟩ := entry_eq_ok h limit
  have hlength : f.locals.length = m.receiverSize + d.argumentSize := by
    rw [hlocals, length_entryLocals]
  refine ⟨f, hentry, hfilled.reachable, hfilled.stack, ?reset, ?pushed, ?receiver, ?parameter,
    hlength, hfilled.marked.trans hlength⟩
  case reset =>
    intro g
    have hroom : g.exceeded? (expand []).length = none := by
      unfold exceeded?
      cases g.limit <;> rfl
    refine ⟨g.reset (m.entryTypes d) [], ?_, ?_, hfilled.stack.symm⟩
    · simp only [resetTo, hroom]
      rfl
    · rw [hlocals, ← reverse_block_entryValues]
      exact expand_eq _
  case pushed =>
    intro g hreachable hfree hempty
    obtain ⟨r, hpush, hr⟩ := pushValues_run hreachable hfree (m.entryValues d)
    refine ⟨r, hpush, ?_⟩
    rw [hr, hempty, List.append_nil, hlocals, reverse_block_entryValues]
  case receiver =>
    intro hstatic
    rw [hlocals, entryLocals, hstatic]
    rfl
  case parameter =>
    intro index type htype
    rw [hlocals]
    exact entryLocals_parameter htype

/-- The array of a constructor starts after the receiver, an int and a long. -/
theorem entry_layout_constructor :
    let m : Method := ⟨"A", constructorName, "(IJ[Ljava/lang/String;Z)V", false⟩
    let d : MethodDescriptor :=
      ⟨[.int, .long, .array "[Ljava/lang/String;", .boolean], none⟩
    MethodDescriptor.parse? m.descriptor = some d ∧
      ∃ f, entry m (some 0) = .ok f ∧ f.locals[0]? = some .uninitializedThis ∧
        f.locals[4]? = some (.unknownObject "[Ljava/lang/String;") ∧
        f.locals.length = 6 ∧ f.maxLocals = 6 := by
  intro m d
  have hparse : MethodDescriptor.parse? m.descriptor = some d := by cbv
  obtain ⟨f, hentry, _, _, _, _, hreceiver, hparameter, hlength, hmark⟩ :=
    entry_layout hparse (some 0)
  exact ⟨hparse, f, hentry, hreceiver rfl, (hparameter 2 _ rfl).1, hlength, hmark⟩

end Frame
end SlotFlow
