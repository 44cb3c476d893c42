import SlotFlow.Command.Request
import SlotFlow.Reposition

/-!
# Executing requests

Files are reached through a `World`, so that a request can be executed on a real disk
or on an imagined one.

Main definitions:

* `World`: files and environment variables;
* `Failure`: why a request was not carried out;
* `Outcome`: exit code and texts;
* `execute`: carries a command line out.
-/

namespace SlotFlow
namespace Command

/-- Files and environment variables; reading and writing may fail with a reason. -/
structure World (m : Type → Type) where
  read : String → m (Except String ByteArray)
  write : String → String → m (Except String Unit)
  lookup : String → m (Option String)

/-- Why a request was not carried out: a message and the causes behind it. -/
structure Failure where
  message : String
  causes : List String
deriving DecidableEq

/-- Causes with their numbers. -/
def numbered : Nat → List String → List String
  | _, [] => []
  | n, cause :: rest => (Text.Decimal.renderNat n ++ ": " ++ cause) :: numbered (n + 1) rest

/-- The text of a failure; causes are numbered if there are several. -/
def Failure.render
    (f : Failure) :
    String :=
  let causes :=
    match f.causes with
    | [] => []
    | [cause] => [cause]
    | causes => numbered 0 causes
  let head := "Error: " ++ f.message ++ "\n"
  if causes.isEmpty then
    head
  else
    head ++ "\nCaused by:\n" ++ String.join (causes.map fun c => "    " ++ c ++ "\n")

/-- The exit code, what goes to the two output streams. -/
structure Outcome where
  code : Nat
  output : String
  errors : String
deriving DecidableEq

namespace Outcome

/-- A request that was carried out. -/
def success
    (output errors : String) :
    Outcome :=
  ⟨0, output, errors⟩

/-- A request that failed after some output. -/
def failure
    (output errors : String)
    (f : Failure) :
    Outcome :=
  ⟨1, output, errors ++ f.render⟩

end Outcome

/-- A fault stands for itself. -/
def Failure.ofFault
    (fault : Fault) :
    Failure :=
  ⟨fault.message, []⟩

/-- The failure to read a listing; a disk's reason stands behind the fault. -/
def Failure.reading
    (path : String)
    (fault : Fault) :
    Failure :=
  match fault with
  | .unreadable reason => ⟨"reading " ++ path, [fault.message, reason]⟩
  | _ => ⟨"reading " ++ path, [fault.message]⟩

/-- The records in the bytes of a file. -/
def recordsOfBytes
    (bytes : ByteArray) :
    Except Fault (List Record) :=
  match String.fromUTF8? bytes with
  | none => .error (.unreadable "stream did not contain valid UTF-8")
  | some source =>
      match Listing.parse source with
      | .error refusal => .error (.listing refusal)
      | .ok records => .ok records

/-- The records of a file. -/
def load
    {m : Type → Type}
    [Monad m]
    (w : World m)
    (path : String) :
    m (Except Failure (List Record)) := do
  let bytes ← w.read path
  let records := (bytes.mapError .unreadable).bind recordsOfBytes
  pure (records.mapError (Failure.reading path))

/-- The settings for a target: the environment's, changed by the options. -/
def settingsFor
    (target : Target)
    (lookup : String → Option String) :
    Except Fault Settings :=
  (Settings.ofEnvironment lookup).map fun s =>
    { s with
      maxStack := target.maxStack <|> s.maxStack
      folding := s.folding && !target.noFolding }

/-- The environment variables that settings are read from. -/
def environment
    {m : Type → Type}
    [Monad m]
    (w : World m) :
    m (String → Option String) := do
  let maxStack ← w.lookup Settings.maxStackVariable
  let folding ← w.lookup Settings.foldingVariable
  let tracing ← w.lookup Settings.tracingVariable
  pure fun name =>
    if name = Settings.maxStackVariable then maxStack
    else if name = Settings.foldingVariable then folding
    else if name = Settings.tracingVariable then tracing
    else none

/-- Loads a target and its settings and goes on with them. -/
def withTarget
    {m : Type → Type}
    [Monad m]
    (w : World m)
    (target : Target)
    (act : List Record → Settings → m Outcome) :
    m Outcome := do
  match ← load w target.input with
  | .error failure => pure (.failure "" "" failure)
  | .ok records =>
      match settingsFor target (← environment w) with
      | .error fault => pure (.failure "" "" (.ofFault fault))
      | .ok settings => act records settings

/-- An observer that prints every record and the frame before it. -/
structure Printer where
  /-- The lines so far, each with its line end. -/
  printed : String
deriving DecidableEq

instance : Observer Printer where
  observe p r f e :=
    ⟨⟨p.printed ++ Text.padRight 48 r.render ++ " " ++ f.render ++ "\n"⟩, [], .ok e⟩

/-- What the printer has printed. -/
def printedBy
    (run : Run Printer) :
    String :=
  String.join (run.observers.map Printer.printed)

/-- Prints every record with the frame before it, and the high-water marks. -/
def trace
    (target : Target)
    (records : List Record)
    (settings : Settings) :
    Outcome :=
  let run := run target.method settings [Printer.mk ""] records
  match run.result with
  | .error fault => .failure (printedBy run) "" (.ofFault fault)
  | .ok a =>
      .success
        (printedBy run ++ "max_stack=" ++ Text.Decimal.renderNat a.maxStack ++
          " max_locals=" ++ Text.Decimal.renderNat a.maxLocals ++ "\n") ""

/-- Prints the numbers of records and the high-water marks. -/
def summary
    (target : Target)
    (records : List Record)
    (settings : Settings) :
    Outcome :=
  match (analyze target.method settings records).result with
  | .error fault => .failure "" "" (.ofFault fault)
  | .ok a =>
      let line := fun title n => title ++ Text.Decimal.renderNat n ++ "\n"
      .success
        (line "records:    " records.length ++ line "output:     " a.records.length ++
          line "max_stack:  " a.maxStack ++ line "max_locals: " a.maxLocals) ""

/-- What is said of a pattern that was not followed to its end. -/
def notice
    (s : Repositioner) :
    String :=
  if s.isDone then
    ""
  else
    "pattern not completed (stopped in " ++ s.stage.name ++ ")\n"

/-- Moves a labelled component and prints or writes the result. -/
def reposition
    {m : Type → Type}
    [Monad m]
    (w : World m)
    (target : Target)
    (s : Repositioner)
    (output : Option String)
    (records : List Record)
    (settings : Settings) :
    m Outcome := do
  let run := run target.method settings [s] records
  match run.result with
  | .error fault => pure (.failure "" "" (.ofFault fault))
  | .ok a =>
      let errors := String.join (run.observers.map notice)
      let text := Listing.render a.records
      match output with
      | none => pure (.success text errors)
      | some path =>
          match ← w.write path text with
          | .ok () => pure (.success "" errors)
          | .error reason => pure (.failure "" errors ⟨"writing " ++ path, [reason]⟩)

/-- Carries a request out. -/
def executeRequest
    {m : Type → Type}
    [Monad m]
    (w : World m) :
    Request → m Outcome
  | .trace target =>
      withTarget w target fun records settings => pure (trace target records settings)
  | .summary target =>
      withTarget w target fun records settings => pure (summary target records settings)
  | .reposition target componentType alignmentType label replacement output =>
      let s := Repositioner.standard componentType alignmentType
      let s := { s with
        label := label.getD s.label
        replacement := replacement.getD s.replacement }
      withTarget w target (reposition w target s output)

/-- How to use the program. -/
def usage : String :=
  "Usage: slotflow <trace|summary|rewrite> [OPTIONS] <FILE>\n"

/-- Carries a command line out. -/
def execute
    {m : Type → Type}
    [Monad m]
    (w : World m)
    (arguments : List String) :
    m Outcome :=
  match Reply.read arguments with
  | .request r => executeRequest w r
  | .help => pure (.success usage "")
  | .misuse => pure ⟨2, "", usage⟩

end Command
end SlotFlow
