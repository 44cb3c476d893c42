import SlotFlow.Command.Arguments
import SlotFlow.Number.Scientific
import SlotFlow.Settings
import SlotFlow.Method

/-!
# Requests

What the command line can be asked to do.

Main definitions:

* `Target`: the listing and how to analyse it;
* `Request`: the commands with their arguments;
* `Reply.read`: the request that arguments make, or a question for help, or neither.
-/

namespace SlotFlow
namespace Command

/-- The listing to analyse and how to do it. -/
structure Target where
  /-- The file that holds the listing. -/
  input : String
  method : Method
  /-- A limit that goes before the one of the environment. -/
  maxStack : Option Nat
  /-- Whether folding is turned off, whatever the environment says. -/
  noFolding : Bool
deriving DecidableEq

/-- The commands. -/
inductive Request where
  /-- Print every record with the frame before it. -/
  | trace (target : Target)
  /-- Print the numbers of records and the high-water marks. -/
  | summary (target : Target)
  /-- Move a labelled component and print or write the result. -/
  | reposition (target : Target) (componentType alignmentType : String)
      (label : Option String) (replacement : Option Float32) (output : Option String)
deriving DecidableEq

/-- A stack limit in slots. -/
def slots?
    (text : String) :
    Option Nat :=
  Settings.readLimit? text.toList

/-- An offset. -/
def offset?
    (text : String) :
    Option Float32 :=
  Number.readSingle? text.toList

/-- Any text is a value. -/
def anyText : String → Bool :=
  fun _ => true

/-- The options of every command. -/
def targetSwitches : List Switch :=
  [⟨"owner", none, some anyText⟩, ⟨"name", none, some anyText⟩, ⟨"desc", none, some anyText⟩,
    ⟨"static", none, none⟩, ⟨"max-stack", none, some fun text => (slots? text).isSome⟩,
    ⟨"no-fold", none, none⟩]

/-- The options of the command that repositions. -/
def repositionSwitches : List Switch :=
  targetSwitches ++
    [⟨"component", none, some anyText⟩, ⟨"alignment", none, some anyText⟩,
      ⟨"label", none, some anyText⟩,
      ⟨"replacement", none, some fun text => (offset? text).isSome⟩,
      ⟨"output", some 'o', some fun text => !text.isEmpty⟩]

/-- The target that arguments name: a file, and options. -/
def target?
    (c : Collected) :
    Option Target := do
  let input ← c.file
  let method : Method :=
    ⟨(c.value? "owner").getD "Main", (c.value? "name").getD "run",
      (c.value? "desc").getD "()V", c.has "static"⟩
  some ⟨input, method, (c.value? "max-stack").bind slots?, c.has "no-fold"⟩

/-- The request to reposition that arguments make. -/
def reposition?
    (c : Collected) :
    Option Request := do
  let target ← target? c
  let componentType ← c.value? "component"
  let alignmentType ← c.value? "alignment"
  some (.reposition target componentType alignmentType (c.value? "label")
    ((c.value? "replacement").bind offset?) (c.value? "output"))

/-- What arguments ask for. -/
inductive Reply where
  | request (request : Request)
  | help
  | misuse
deriving DecidableEq

/-- Sorts the arguments of a command and makes a request of them. -/
def Reply.ofArguments
    (switches : List Switch)
    (make : Collected → Option Request)
    (arguments : List String) :
    Reply :=
  match sort switches .empty arguments with
  | .complete c =>
      match make c with
      | some r => request r
      | none => misuse
  | .help => help
  | .refused => misuse

/-- What a question for help asks for: all commands, or one that there is. -/
def Reply.ofTopics : List String → Reply
  | [] => help
  | [topic] => if topic ∈ ["trace", "summary", "rewrite", "help"] then help else misuse
  | _ => misuse

/-- What a command line without a command asks for: help, the version, or nothing. -/
def Reply.ofOption
    (argument : String) :
    Reply :=
  match argument.toList with
  | '-' :: 'h' :: _ => help
  | '-' :: 'V' :: _ => help
  | _ => if argument ∈ ["--help", "--version"] then help else misuse

/-- What a command line asks for. -/
def Reply.read : List String → Reply
  | [] => misuse
  | "trace" :: arguments =>
      ofArguments targetSwitches (fun c => (target? c).map .trace) arguments
  | "summary" :: arguments =>
      ofArguments targetSwitches (fun c => (target? c).map .summary) arguments
  | "rewrite" :: arguments => ofArguments repositionSwitches reposition? arguments
  | "help" :: topics => ofTopics topics
  | argument :: _ => ofOption argument

end Command
end SlotFlow
