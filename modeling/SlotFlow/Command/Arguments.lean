import SlotFlow.Text.Split

/-!
# Command-line arguments

Arguments are one file, options and their values. An option is written in full after
two hyphens, or as one letter after one; its value is joined by an equals sign or is
the next argument. After two hyphens alone all is positional. Arguments are read from
left to right, and the first that is wrong or asks for help decides.

Main definitions:

* `Switch`: an option that is known;
* `Collected`: the file and the options that were read;
* `sort`: sorts arguments, unless one of them is refused or asks for help.
-/

namespace SlotFlow
namespace Command

/-- An option that is known. -/
structure Switch where
  name : String
  /-- The letter that stands for the name. -/
  letter : Option Char
  /-- The values that it takes; a flag takes none. -/
  values : Option (String → Bool)

/-- Whether a value goes with the option. -/
def Switch.isValued
    (s : Switch) :
    Bool :=
  s.values.isSome

/-- Whether the option takes this value. -/
def Switch.takes
    (s : Switch)
    (value : String) :
    Bool :=
  s.values.all fun accepts => accepts value

/-- Arguments, sorted. -/
structure Collected where
  /-- The positional argument. -/
  file : Option String
  /-- Names of options and their values; a flag has the empty one. -/
  options : List (String × String)
deriving DecidableEq

namespace Collected

/-- Nothing was given. -/
def empty : Collected :=
  ⟨none, []⟩

/-- The value of an option. -/
def value?
    (c : Collected)
    (name : String) :
    Option String :=
  c.options.lookup name

/-- Whether an option was given. -/
def has
    (c : Collected)
    (name : String) :
    Bool :=
  (c.value? name).isSome

/-- One more positional argument; there is one at most, and it is not empty. -/
def withFile?
    (c : Collected)
    (text : String) :
    Option Collected :=
  if c.file.isNone && !text.isEmpty then
    some { c with file := some text }
  else
    none

/-- One more option; it is given once at most, and with a value that it takes. -/
def withOption?
    (c : Collected)
    (s : Switch)
    (value : String) :
    Option Collected :=
  if !c.has s.name && s.takes value then
    some { c with options := (s.name, value) :: c.options }
  else
    none

end Collected

/-- Whether an argument is an option, and so cannot be the value of one. -/
def looksLikeOption
    (argument : String) :
    Bool :=
  match argument.toList with
  | ['-'] => false
  | '-' :: _ => true
  | _ => false

/-- The text before the first equals sign, and the text after it if there is one. -/
def cutAtEquals
    (cs : List Char) :
    List Char × Option (List Char) :=
  let name := cs.takeWhile (· ≠ '=')
  match cs.dropWhile (· ≠ '=') with
  | [] => (name, none)
  | _ :: value => (name, some value)

/-- What one argument is. -/
inductive Reading where
  | file (text : String)
  /-- From here on all is positional. -/
  | escape
  /-- An option that is complete. -/
  | option (s : Switch) (value : String)
  /-- An option whose value is the next argument. -/
  | awaiting (s : Switch)
  | help
  | refused

/-- Reads an option by its name. -/
def readName
    (switches : List Switch)
    (cs : List Char) :
    Reading :=
  let (name, value) := cutAtEquals cs
  match switches.find? fun s => s.name.toList = name, value with
  | none, _ => .refused
  | some s, some value => if s.isValued then .option s (String.ofList value) else .refused
  | some s, none => if s.isValued then .awaiting s else .option s ""

/-- Reads an option by its letter. -/
def readLetter
    (switches : List Switch)
    (letter : Char)
    (rest : List Char) :
    Reading :=
  match switches.find? fun s => s.letter = some letter, rest with
  | none, _ => .refused
  | some s, [] => if s.isValued then .awaiting s else .option s ""
  | some s, c :: cs =>
      if s.isValued then
        .option s (String.ofList (if c = '=' then cs else c :: cs))
      else
        .refused

/-- Reads one argument. The letter for help is heard whatever is written after it. -/
def readArgument
    (switches : List Switch)
    (argument : String) :
    Reading :=
  match argument.toList with
  | ['-', '-'] => .escape
  | '-' :: '-' :: name =>
      if name = "help".toList then .help else readName switches name
  | ['-'] => .file argument
  | '-' :: 'h' :: _ => .help
  | '-' :: letter :: rest => readLetter switches letter rest
  | _ => .file argument

/-- The outcome of sorting arguments. -/
inductive Sorted where
  | complete (c : Collected)
  | help
  | refused
deriving DecidableEq

/-- Sorts arguments that are all positional. -/
def sortFiles
    (c : Collected) :
    List String → Sorted
  | [] => .complete c
  | text :: rest =>
      match c.withFile? text with
      | some c => sortFiles c rest
      | none => .refused

/-- Sorts arguments; `c` holds those that were sorted before. -/
def sort
    (switches : List Switch)
    (c : Collected) :
    List String → Sorted
  | [] => .complete c
  | argument :: rest =>
      match readArgument switches argument with
      | .file text =>
          match c.withFile? text with
          | some c => sort switches c rest
          | none => .refused
      | .escape => sortFiles c rest
      | .option s value =>
          match c.withOption? s value with
          | some c => sort switches c rest
          | none => .refused
      | .awaiting s =>
          match rest with
          | [] => .refused
          | value :: more =>
              if looksLikeOption value then
                .refused
              else
                match c.withOption? s value with
                | some c => sort switches c more
                | none => .refused
      | .help => .help
      | .refused => .refused

end Command
end SlotFlow
