import SlotFlow.Number.Layout
import SlotFlow.Text.Escaped

/-!
# Literals

What is known statically about the content of a slot.

Main definitions:

* `Literal`: a known value, or `unknown`;
* `Kind`: the runtime type of a literal;
* `Literal.render`: its text in a frame.

Floats are equal if their bits are, so the zeros differ and NaN equals itself. But all NaNs are
one value here: the sign and the payload of a NaN are not kept, and its negation is the same
NaN. That shows only where literals are compared: `Frame.replaceAll` takes slots that differ in
a NaN for equal, and `Repositioner.isPositioning` finds an offset that is NaN in every NaN.
-/

namespace SlotFlow

/-- The runtime type of a literal. -/
inductive Kind where
  | unknown
  | int
  | long
  | float
  | double
  | string
  | null
deriving DecidableEq

/-- The name of a kind in messages. -/
def Kind.name : Kind → String
  | unknown => "unknown"
  | int => "int"
  | long => "long"
  | float => "float"
  | double => "double"
  | string => "string"
  | null => "null"

/-- The statically known value of a slot. -/
inductive Literal where
  | unknown
  | int (value : Int32)
  | long (value : Int64)
  | float (value : Float32)
  | double (value : Float)
  | string (text : String)
  | null
deriving DecidableEq

namespace Literal

/-- The runtime type of a literal. -/
def kind : Literal → Kind
  | unknown => .unknown
  | int _ => .int
  | long _ => .long
  | float _ => .float
  | double _ => .double
  | string _ => .string
  | null => .null

/-- Whether anything is known. -/
def isKnown
    (l : Literal) :
    Bool :=
  l.kind ≠ .unknown

/-- The text of a literal in a frame. -/
def render : Literal → String
  | unknown => "?"
  | int value => Text.Decimal.renderInt value.toInt
  | long value => Text.Decimal.renderInt value.toInt ++ "L"
  | float value => Number.Style.literal.single value ++ "f"
  | double value => Number.Style.literal.double value
  | string text => Text.Escaped.render text
  | null => "null"

/-- A literal is known unless it is the unknown one. -/
theorem isKnown_iff
    (l : Literal) :
    l.isKnown = true ↔ l ≠ .unknown := by
  cases l <;> simp [isKnown, kind]

end Literal
end SlotFlow
