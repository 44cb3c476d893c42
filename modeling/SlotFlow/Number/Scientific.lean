import SlotFlow.Number.Reading
import SlotFlow.Text.Decimal

/-!
# Floats read from text

A decimal text is kept exactly, as a sign, digits and a power of ten, and rounded
once into the format asked for.

Main definitions:

* `Scientific.read?`: a decimal with optional sign, point and exponent;
* `Scientific.toSingle`, `Scientific.toDouble`: the nearest float, overflow to infinity;
* `readSingle?`: the same with the words for infinity and for what is not a number.
-/

namespace SlotFlow
namespace Number

/-- The number `± digits · 10 ^ exponent`. -/
structure Scientific where
  negative : Bool
  digits : Nat
  exponent : Int
deriving DecidableEq

namespace Scientific

/-- Reads an exponent that follows the letter `e` or ends the text. -/
def readExponent? : List Char → Option Int
  | [] => some 0
  | c :: cs => if c = 'e' ∨ c = 'E' then Text.Decimal.readInt? cs else none

/-- Reads digits with at most one point and at least one digit, then an exponent. -/
def readMagnitude?
    (negative : Bool)
    (cs : List Char) :
    Option Scientific :=
  let whole := cs.takeWhile Char.isDigit
  let rest := cs.dropWhile Char.isDigit
  let (places, tail) :=
    match rest with
    | '.' :: more => (more.takeWhile Char.isDigit, more.dropWhile Char.isDigit)
    | _ => ([], rest)
  let ds := whole ++ places
  if ds.isEmpty then
    none
  else
    (readExponent? tail).map fun e =>
      ⟨negative, Text.Decimal.natOfDigits ds, e - places.length⟩

/-- Reads a decimal with an optional sign. -/
def read? : List Char → Option Scientific
  | '-' :: cs => readMagnitude? true cs
  | '+' :: cs => readMagnitude? false cs
  | cs => readMagnitude? false cs

/-- The power of ten just above the number. -/
def ceilingExponent
    (s : Scientific) :
    Int :=
  (Text.Decimal.digits s.digits).length + s.exponent

/--
Whether the number is beyond every float or below every positive one; both formats
lie between the powers of ten named here.
-/
def outOfRange
    (s : Scientific) :
    Option Bool :=
  if s.digits = 0 then
    some false
  else if 400 < s.ceilingExponent then
    some true
  else if s.ceilingExponent < -400 then
    some false
  else
    none

/-- The nearest 32-bit float. -/
def toSingle
    (s : Scientific) :
    Float32 :=
  let x : Float32 :=
    match s.outOfRange with
    | some true => 1.0 / 0.0
    | some false => 0.0
    | none => Float32.ofScientific s.digits (s.exponent < 0) s.exponent.natAbs
  if s.negative then -x else x

/-- The nearest 64-bit float. -/
def toDouble
    (s : Scientific) :
    Float :=
  let x : Float :=
    match s.outOfRange with
    | some true => 1.0 / 0.0
    | some false => 0.0
    | none => Float.ofScientific s.digits (s.exponent < 0) s.exponent.natAbs
  if s.negative then -x else x

end Scientific

/-- A word for a float that no digits denote, in any case of letters. -/
def readWord?
    (cs : List Char) :
    Option Float32 :=
  match String.ofList (cs.map Char.toLower) with
  | "inf" | "infinity" => some (1.0 / 0.0)
  | "nan" => some (0.0 / 0.0)
  | _ => none

/-- Reads a 32-bit float: a decimal or a word, with an optional sign. -/
def readSingle?
    (cs : List Char) :
    Option Float32 :=
  (Scientific.read? cs).map Scientific.toSingle <|>
    match cs with
    | '-' :: rest => (readWord? rest).map (fun x => -x)
    | '+' :: rest => readWord? rest
    | _ => readWord? cs

end Number
end SlotFlow
