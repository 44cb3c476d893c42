import SlotFlow.Fault

/-!
# Settings

How an analysis is carried out. Settings can be read from environment variables.

Main definitions:

* `Settings`: stack limit, folding, tracing;
* `Settings.ofEnvironment`: the defaults, changed by the variables that are set.
-/

namespace SlotFlow

/-- How an analysis is carried out. -/
structure Settings where
  /-- The greatest depth of the operand stack, in slots. -/
  maxStack : Option Nat
  /-- Whether arithmetic on known operands is folded. -/
  folding : Bool
  /-- Whether every executed instruction is logged with the frame after it. -/
  tracing : Bool
deriving DecidableEq

namespace Settings

/-- No limit, folding, no tracing. -/
def standard : Settings :=
  ⟨none, true, false⟩

/-- The variable that holds the stack limit. -/
def maxStackVariable : String :=
  "LITSTACK_MAX_STACK"

/-- The variable that turns folding on or off. -/
def foldingVariable : String :=
  "LITSTACK_FOLD"

/-- The variable that turns tracing on or off. -/
def tracingVariable : String :=
  "LITSTACK_TRACE"

/-- Whether a character is white space; the property of that name has these members. -/
def isWhiteSpace
    (c : Char) :
    Bool :=
  let n := c.toNat
  (9 ≤ n && n ≤ 13) || n = 0x20 || n = 0x85 || n = 0xa0 || n = 0x1680 ||
    (0x2000 ≤ n && n ≤ 0x200a) || n = 0x2028 || n = 0x2029 || n = 0x202f || n = 0x205f ||
    n = 0x3000

/-- A text without white space at its ends. -/
def trim
    (cs : List Char) :
    List Char :=
  ((cs.dropWhile isWhiteSpace).reverse.dropWhile isWhiteSpace).reverse

/-- A flag is on unless its text is empty or one of the words for no. -/
def readFlag
    (raw : String) :
    Bool :=
  let text := String.ofList ((trim raw.toList).map Char.toLower)
  text ∉ ["", "0", "false", "no", "off"]

/-- Reads a number of slots that fits a machine word. -/
def readLimit?
    (cs : List Char) :
    Option Nat :=
  Text.Decimal.readNatBelow? UInt64.size cs

/-- The settings that environment variables ask for. -/
def ofEnvironment
    (lookup : String → Option String) :
    Except Fault Settings :=
  let folding := ((lookup foldingVariable).map readFlag).getD standard.folding
  let tracing := ((lookup tracingVariable).map readFlag).getD standard.tracing
  match lookup maxStackVariable with
  | none => .ok ⟨none, folding, tracing⟩
  | some raw =>
      match readLimit? (trim raw.toList) with
      | some limit => .ok ⟨some limit, folding, tracing⟩
      | none => .error (.invalidLimit maxStackVariable raw)

end Settings
end SlotFlow
