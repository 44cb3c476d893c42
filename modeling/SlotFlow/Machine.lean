import SlotFlow.Effect
import SlotFlow.Fold
import SlotFlow.Settings

/-!
# The machine

Records are executed one at a time on a frame. Labels are kept until the next
instruction, so that a `new` knows which labels name it.

Main definitions:

* `Machine`: the frame and what is known of objects under construction;
* `MachineM`: a step, which may fail and leaves a machine either way;
* `Machine.start`: the machine at the start of a method;
* `Machine.perform`: carries an effect out;
* `Machine.execute`: executes one record.

A step that fails keeps what it has already done: operands that were popped stay
popped.
-/

namespace SlotFlow

/-- The state of an analysis between two records. -/
structure Machine where
  frame : Frame
  /-- Internal name of the class that declares the method. -/
  owner : String
  folding : Bool
  /-- Labels since the last instruction, first one first. -/
  pending : List Label
  /-- The type created at each site, latest first. -/
  created : List (CreationSite × String)
  /-- The last number given to a site without a label. -/
  lastSite : UInt32
deriving DecidableEq

/-- A step of the machine. If it fails it still leaves a machine. -/
abbrev MachineM :=
  ExceptT Fault (StateM Machine)

namespace Machine

/-- The machine at the start of a method. -/
def start
    (m : Method)
    (settings : Settings) :
    Except Fault Machine :=
  (Frame.entry m settings.maxStack).map fun frame =>
    ⟨frame, m.owner, settings.folding, [], [], 0⟩

/-- Carries out an operation on the frame. -/
def onFrame
    {α : Type}
    (act : FrameM α) :
    MachineM α :=
  fun m =>
    let (result, frame) := act m.frame
    (result, { m with frame := frame })

/-- Pops slots one by one; the first of the result was the top. -/
def popCells : Nat → FrameM (List Value)
  | 0 => pure []
  | n + 1 => do
      let v ← Frame.pop
      let rest ← popCells n
      pure (v :: rest)

/-- Pushes slots one by one. -/
def pushCells : List Value → FrameM Unit
  | [] => pure ()
  | v :: rest => do
      Frame.push v
      pushCells rest

/-- What a local holds after a number was added to it. -/
def incremented
    (folding : Bool)
    (v : Value)
    (delta : Int32) :
    Value :=
  match folding, v.literal with
  | true, .int n => .int (n + delta)
  | _, _ => .unknown .int

/-- The category of the elements of an array; of what is no array any object. -/
def elementCategory : Category → Category
  | .object name =>
      match (FieldType.parse? name).bind FieldType.element? with
      | some type => .ofFieldType type
      | none => .object objectClass
  | _ => .object objectClass

/-- The literal of a result, or the fault that folding has found. -/
def folded
    (folding : Bool)
    (result : Except Fault Literal) :
    FrameM Literal :=
  if folding then
    match result with
    | .ok l => pure l
    | .error e => throw e
  else
    pure .unknown

/-- Pops the operands of arithmetic, the right one first, and pushes the result. -/
def arithmetic
    (folding : Bool)
    (op : Opcode) :
    Signature → FrameM Unit
  | .unary operand result => do
      let v ← Frame.popWide operand.slots
      let l ← folded folding (Fold.fold1 op v.literal)
      Frame.pushSized (.ofLiteral result l)
  | .binary left right result => do
      let r ← Frame.popWide right.slots
      let v ← Frame.popWide left.slots
      let l ← folded folding (Fold.fold2 op v.literal r.literal)
      Frame.pushSized (.ofLiteral result l)

/--
The type that an object has after its constructor was called: for the receiver of the
method its owner, else the type created at its site, else the owner of the
constructor. An object that is initialized keeps its type.
-/
def constructedType?
    (m : Machine)
    (category : Category)
    (callOwner : String) :
    Option String :=
  match category with
  | .uninitializedThis => some m.owner
  | .uninitialized site => some ((m.created.lookup site).getD callOwner)
  | _ => none

/-- Turns every copy of an object whose constructor was called into one of its type. -/
def completeConstruction
    (v : Value)
    (callOwner : String) :
    MachineM Unit :=
  fun m =>
    match m.constructedType? v.category callOwner with
    | some type => (.ok (), { m with frame := m.frame.replaceAll v (.unknownObject type) })
    | none => (.ok (), m)

/-- Pops the receiver of a call. -/
def popReceiver : Receiver → MachineM Unit
  | .none => pure ()
  | .object => do
      let _ ← onFrame Frame.pop
  | .constructed owner => do
      let v ← onFrame Frame.pop
      completeConstruction v owner

/--
Pushes a new object. Its site is the first pending label, or else a number of its
own; every pending label stands for the object from here on.
-/
def create
    (type : String) :
    MachineM Unit :=
  fun m =>
    match m.pending with
    | [] =>
        let site := .synthetic (m.lastSite + 1)
        onFrame (Frame.push (.uninitialized site))
          { m with lastSite := m.lastSite + 1, created := (site, type) :: m.created }
    | l :: rest =>
        onFrame (Frame.push (.uninitialized (.label l)))
          { m with created := (l :: rest).map (fun l => (.label l, type)) ++ m.created }

/-- Carries an effect out. -/
def perform : Effect → MachineM Unit
  | .nothing => pure ()
  | .push v => onFrame (Frame.pushSized v)
  | .discard slots => onFrame (Frame.popMany slots)
  | .replace slots v => onFrame do
      Frame.popMany slots
      Frame.pushSized v
  | .load index wide => onFrame do
      let v ← Frame.getLocal index
      Frame.push v
      if wide then
        Frame.push .top
  | .store index slots => onFrame do
      let v ← Frame.popWide slots
      Frame.setLocal index v
  | .increment index delta => fun m => m |> onFrame do
      let v ← Frame.getLocal index
      Frame.setLocal index (incremented m.folding v delta)
  | .element => onFrame do
      let _ ← Frame.pop
      let v ← Frame.pop
      Frame.push (.unknown (elementCategory v.category))
  | .shuffle slots order => onFrame do
      let cells ← popCells slots
      pushCells (order.filterMap fun i => cells[i]?)
  | .arithmetic op signature => fun m => m |> onFrame (arithmetic m.folding op signature)
  | .readField static name descriptor => onFrame do
      if !static then
        let _ ← Frame.pop
      Frame.pushDescriptor descriptor (some name)
  | .writeField static descriptor => onFrame do
      Frame.popDescriptor descriptor
      if !static then
        Frame.popMany 1
  | .call receiver descriptor => do
      onFrame (Frame.popDescriptor descriptor)
      popReceiver receiver
      onFrame (Frame.pushDescriptor descriptor none)
  | .create type => create type
  | .refuse fault => throw fault

/-- The machine while an instruction is executed. -/
def executing
    (m : Machine)
    (op : Opcode) :
    Machine :=
  { m with frame := m.frame.executing op }

/-- The machine after an instruction, which uses the pending labels up. -/
def finished
    (m : Machine) :
    Machine :=
  { m with pending := [] }

/-- Executes an instruction on a reachable frame. -/
def executeReachable
    (op : Opcode)
    (effect : Effect) :
    MachineM Unit :=
  fun m =>
    match perform effect (m.executing op) with
    | (.error e, after) => (.error e, after.finished)
    | (.ok (), after) =>
        if op.endsFlow then
          (.ok (), { after.finished with frame := after.frame.leave })
        else
          (.ok (), after.finished)

/-- Executes an instruction; where control cannot be it does nothing. -/
def executeInstruction
    (op : Opcode)
    (r : Record) :
    MachineM Unit :=
  if op.isSubroutine then
    throw (.unsupported op)
  else
    match r.misfit? with
    | some (op, shape) => throw (.misfit op shape)
    | none => fun m =>
        if m.frame.reachable then
          executeReachable op r.effect m
        else
          (.ok (), m.finished)

/-- Executes one record. -/
def execute : Record → MachineM Unit
  | .label l => fun m => (.ok (), { m with pending := m.pending ++ [l] })
  | .frame f =>
      if f.kind = .expanded then
        onFrame (Frame.resetTo f.locals f.stack)
      else
        throw (.compressedFrame f.kind)
  | r =>
      match r.opcode? with
      | some op => executeInstruction op r
      | none => pure ()

end Machine
end SlotFlow
