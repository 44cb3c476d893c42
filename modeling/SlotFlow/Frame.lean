import SlotFlow.Value
import SlotFlow.Fault
import SlotFlow.Method

/-!
# Frames

The locals and the operand stack at one point of a method body. A value of 64 bits
takes two slots, itself and an empty one after it, among the locals and on the stack.

Main definitions:

* `Locals.read`, `Locals.write`: reading a local; writing one, and what that does to
  its neighbours;
* `Frame`: locals, stack, reachability, high-water marks and the stack limit;
* `FrameM`: operations on a frame, which may fail and leave a frame either way;
* `Frame.entry`: the frame at the start of a method.

Main statements:

* `Locals.length_write`: a write makes room for its value and removes nothing;
* `Frame.push_run`, `Frame.pop_run`: what a push and a pop do.
-/

namespace SlotFlow

namespace Locals

/-- Appends empty slots up to a length. -/
def pad
    (length : Nat)
    (cells : List Value) :
    List Value :=
  cells ++ List.replicate (length - cells.length) Value.top

/-- The content of a slot; past the last one every slot is empty. -/
def read
    (cells : List Value)
    (index : Nat) :
    Value :=
  cells[index]?.getD .top

/-- Whether a slot holds the first half of a wide value. -/
def isWideAt
    (cells : List Value)
    (index : Nat) :
    Bool :=
  cells[index]?.any Value.isWide

/-- Empties the slot after `index` where a wide value starts or has started there. -/
def emptyNext
    (cells : List Value)
    (index : Nat)
    (needed : Bool) :
    List Value :=
  if needed then cells.set (index + 1) .top else cells

/-- Empties the slot before `index` if its wide value has lost its second half. -/
def emptyPrevious
    (cells : List Value) :
    Nat → List Value
  | 0 => cells
  | index + 1 => if isWideAt cells index then cells.set index .top else cells

/--
Writes a value. The second half of a wide value is emptied, before or after the
write, and a wide value before the slot is lost with its second half.
-/
def write
    (cells : List Value)
    (index : Nat)
    (v : Value) :
    List Value :=
  let padded := pad (index + if v.isWide then 2 else 1) cells
  let wide := v.isWide || isWideAt padded index
  emptyPrevious (emptyNext (padded.set index v) index wide) index

/-- A write makes room for its value and removes nothing. -/
theorem length_write
    (cells : List Value)
    (index : Nat)
    (v : Value) :
    (write cells index v).length = max cells.length (index + if v.isWide then 2 else 1) := by
  have hpad : ∀ n, (pad n cells).length = max cells.length n := by
    intro n
    simp only [pad, List.length_append, List.length_replicate]
    omega
  have hnext : ∀ cs i b, (emptyNext cs i b).length = cs.length := by
    intro cs i b
    cases b <;> simp [emptyNext]
  have hprevious : ∀ cs i, (emptyPrevious cs i).length = cs.length := by
    intro cs i
    cases i with
    | zero => rfl
    | succ i =>
      simp only [emptyPrevious]
      split <;> simp
  rw [write, hprevious, hnext, List.length_set, hpad]

end Locals

/-- The state of locals and operand stack at one point of a method body. -/
structure Frame where
  locals : List Value
  /-- The operand stack, top first. -/
  stack : List Value
  reachable : Bool
  /-- The greatest stack depth so far. -/
  maxStack : Nat
  /-- The greatest number of locals so far. -/
  maxLocals : Nat
  /-- The greatest stack depth that is allowed. -/
  limit : Option Nat
  /-- The instruction that is being executed, for reports. -/
  current : Option Opcode
deriving DecidableEq

/-- An operation on a frame. If it fails it still leaves a frame. -/
abbrev FrameM :=
  ExceptT Fault (StateM Frame)

namespace Frame

/-- A reachable frame without locals and stack. -/
def empty
    (limit : Option Nat) :
    Frame where
  locals := []
  stack := []
  reachable := true
  maxStack := 0
  maxLocals := 0
  limit := limit
  current := none

/-- The frame after a local was written. -/
def writeLocal
    (f : Frame)
    (index : Nat)
    (v : Value) :
    Frame :=
  let locals := Locals.write f.locals index v
  { f with locals := locals, maxLocals := max f.maxLocals locals.length }

/-- Writes unknown values of the types given, one after the other, from `index` on. -/
def writeParameters
    (f : Frame)
    (index : Nat) :
    List FieldType → Frame
  | [] => f
  | type :: types =>
      writeParameters (f.writeLocal index (.unknown (.ofFieldType type))) (index + type.size) types

/-- The receiver at the start of a method. -/
def receiver
    (m : Method) :
    Value :=
  if m.isConstructor then .uninitializedThis else .unknownObject m.owner

/-- The frame at the start of a method: its receiver, if any, then its parameters. -/
def entry
    (m : Method)
    (limit : Option Nat) :
    Except Fault Frame :=
  match MethodDescriptor.parse? m.descriptor with
  | none => .error (.invalidDescriptor m.descriptor)
  | some d =>
      if m.isStatic then
        .ok ((empty limit).writeParameters 0 d.parameters)
      else
        .ok (((empty limit).writeLocal 0 (receiver m)).writeParameters 1 d.parameters)

/-- The frame while `op` is executed. -/
def executing
    (f : Frame)
    (op : Opcode) :
    Frame :=
  { f with current := some op }

/-- Changes a reachable frame; an unreachable one is refused. -/
def whenReachable
    {α : Type}
    (act : Frame → Except Fault α × Frame) :
    FrameM α :=
  fun f => if f.reachable then act f else (.error .unreachable, f)

/-- The value of a local. -/
def getLocal
    (index : Nat) :
    FrameM Value :=
  whenReachable fun f =>
    (.ok (Locals.read f.locals index), { f with maxLocals := max f.maxLocals (index + 1) })

/-- Writes a local. -/
def setLocal
    (index : Nat)
    (v : Value) :
    FrameM Unit :=
  whenReachable fun f => (.ok (), f.writeLocal index v)

/-- The stack limit, if a depth goes past it. -/
def exceeded?
    (f : Frame)
    (depth : Nat) :
    Option Nat :=
  f.limit.filter (· < depth)

/-- The frame with one more slot on its stack. -/
def pushed
    (f : Frame)
    (v : Value) :
    Frame :=
  { f with stack := v :: f.stack, maxStack := max f.maxStack (f.stack.length + 1) }

/-- Pushes one slot. -/
def push
    (v : Value) :
    FrameM Unit :=
  whenReachable fun f =>
    match f.exceeded? (f.stack.length + 1) with
    | some limit => (.error (.stackOverflow limit), f)
    | none => (.ok (), f.pushed v)

/-- Pushes a value and, if it is wide, its second half. -/
def pushSized
    (v : Value) :
    FrameM Unit := do
  push v
  if v.isWide then
    push .top

/-- Pops one slot. -/
def pop : FrameM Value :=
  whenReachable fun f =>
    match f.stack with
    | [] => (.error (.stackUnderflow f.current), f)
    | v :: rest => (.ok v, { f with stack := rest })

/--
Pops `count` slots and returns the deepest, which holds the value if a wide one is
popped as two slots. There is no deepest of none.
-/
def popWide
    (count : Nat) :
    FrameM Value :=
  whenReachable fun f =>
    match count, f.stack.drop (count - 1) with
    | _ + 1, v :: rest => (.ok v, { f with stack := rest })
    | _, _ => (.error (.stackUnderflow f.current), f)

/-- Pops `count` slots at once. -/
def popMany
    (count : Nat) :
    FrameM Unit :=
  whenReachable fun f =>
    if f.stack.length < count then
      (.error (.stackUnderflow f.current), f)
    else
      (.ok (), { f with stack := f.stack.drop count })

/-- What a descriptor says, or a fault that names it. -/
def orInvalid
    {α : Type}
    (descriptor : String) :
    Option α → FrameM α
  | some a => pure a
  | none => throw (.invalidDescriptor descriptor)

/-- Pops the slots of a method's arguments or a field's value. -/
def popDescriptor
    (descriptor : String) :
    FrameM Unit := do
  let count ← orInvalid descriptor (poppedSlots? descriptor)
  popMany count

/-- The unknown value of a type, loaded from `field` if one is given. -/
def loaded
    (type : FieldType)
    (field : Option String) :
    Value :=
  { Value.unknown (.ofFieldType type) with provenance := field }

/--
Pushes the unknown value of a field's type or a method's result, if it has one, as
loaded from `field` if one is given.
-/
def pushDescriptor
    (descriptor : String)
    (field : Option String) :
    FrameM Unit := do
  match ← orInvalid descriptor (pushedType? descriptor) with
  | some type => pushSized (loaded type field)
  | none => pure ()

/-- The slots of frame entries, in order. -/
def expand
    (types : List VerificationType) :
    List Value :=
  types.flatMap fun type =>
    let v := Value.unknown (.ofVerificationType type)
    if type.isWide then [v, .top] else [v]

/--
Replaces locals and stack by the types of a frame record, bottom first, and makes the
frame reachable. Nothing is changed if the stack would be too deep.
-/
def resetTo
    (locals stack : List VerificationType) :
    FrameM Unit :=
  fun f =>
    let cells := expand locals
    let operands := expand stack
    match f.exceeded? operands.length with
    | some limit => (.error (.stackOverflow limit), f)
    | none =>
        (.ok (), { f with
          locals := cells
          stack := operands.reverse
          reachable := true
          maxStack := max f.maxStack operands.length
          maxLocals := max f.maxLocals cells.length })

/-- The frame after control has left: nothing is known and nothing can be done. -/
def leave
    (f : Frame) :
    Frame :=
  { f with reachable := false, locals := [], stack := [] }

/-- The slot `depth` below the top of the stack. -/
def peek?
    (f : Frame)
    (depth : Nat) :
    Option Value :=
  f.stack[depth]?

/-- Replaces every slot that is equal to `old`. -/
def replaceAll
    (f : Frame)
    (old new : Value) :
    Frame :=
  let replace := fun v => if v = old then new else v
  { f with locals := f.locals.map replace, stack := f.stack.map replace }

/-- Slots separated by commas. -/
def renderCells
    (cells : List Value) :
    String :=
  ", ".intercalate (cells.map Value.render)

/-- The text of a frame, the stack bottom first. -/
def render
    (f : Frame) :
    String :=
  if f.reachable then
    "locals [" ++ renderCells f.locals ++ "] stack [" ++ renderCells f.stack.reverse ++ "]"
  else
    "<unreachable>"

/-- A push on a reachable frame that has room. -/
theorem push_run
    {f : Frame}
    {v : Value}
    (hreachable : f.reachable = true)
    (hroom : f.exceeded? (f.stack.length + 1) = none) :
    push v f = (.ok (), f.pushed v) := by
  simp [push, whenReachable, hreachable, hroom]

/-- A pop of a reachable frame takes the top. -/
theorem pop_run
    {f : Frame}
    {v : Value}
    {rest : List Value}
    (hreachable : f.reachable = true)
    (hstack : f.stack = v :: rest) :
    pop f = (.ok v, { f with stack := rest }) := by
  simp [pop, whenReachable, hreachable, hstack]

end Frame
end SlotFlow
