import SlotFlow.Number.Shortest
import SlotFlow.Text.Decimal

/-!
# Text of floats

A float is written with its shortest decimal. Two styles are in use: constants of a
listing are positional throughout, literals in a frame turn to an exponent when they
are very small or very large and always show that they are not whole numbers.

Main definitions:

* `Style`: which exponents are positional and whether a whole number gets a point;
* `Style.constant`, `Style.literal`: the two styles;
* `Style.render`: the text of a reading.
-/

namespace SlotFlow
namespace Number

/-- How a shortest decimal is laid out. -/
structure Style where
  /-- Least and greatest power of ten of the first digit that stay positional. -/
  positional : Option (Int × Int)
  /-- Whether a whole number is written with `.0`. -/
  pointed : Bool

/-- No exponent at all, and no point on a whole number. -/
def Style.constant : Style :=
  ⟨none, false⟩

/-- Positional from `0.0001` up to below ten to the sixteenth, always with a point. -/
def Style.literal : Style :=
  ⟨some (-4, 15), true⟩

namespace Scaled

/-- Power of ten of the first digit. -/
def leadingExponent
    (d : Scaled) :
    Int :=
  d.exponent + (Text.Decimal.digits d.digits).length - 1

/-- The digits with a point in place, without an exponent. -/
def positional
    (d : Scaled)
    (pointed : Bool) :
    String :=
  let ds := Text.Decimal.digits d.digits
  let tail := if pointed then ".0" else ""
  match d.exponent with
  | Int.ofNat k => String.ofList (ds ++ List.replicate k '0') ++ tail
  | Int.negSucc k =>
      let places := k + 1
      if places < ds.length then
        String.ofList (ds.take (ds.length - places)) ++ "." ++
          String.ofList (ds.drop (ds.length - places))
      else
        "0." ++ String.ofList (List.replicate (places - ds.length) '0' ++ ds)

/-- One digit, the others after a point, and the power of ten. -/
def scientific
    (d : Scaled) :
    String :=
  let ds := Text.Decimal.digits d.digits
  let rest := ds.drop 1
  String.ofList (ds.take 1) ++
    (if rest.isEmpty then "" else "." ++ String.ofList rest) ++
    "e" ++ Text.Decimal.renderInt d.leadingExponent

end Scaled

namespace Style

/-- Text of a decimal without its sign; zero is always positional. -/
def magnitude
    (s : Style)
    (d : Scaled) :
    String :=
  match s.positional with
  | none => d.positional s.pointed
  | some (low, high) =>
      if d.digits = 0 ∨ (low ≤ d.leadingExponent ∧ d.leadingExponent ≤ high) then
        d.positional s.pointed
      else
        d.scientific

/-- Text of a reading; a zero keeps its sign, what is not a number has none. -/
def render
    (s : Style)
    (f : Format) :
    Reading → String
  | .nan => "NaN"
  | .infinite negative => if negative then "-inf" else "inf"
  | .finite negative m q =>
      (if negative then "-" else "") ++ s.magnitude (shortest f m q)

/-- Text of a 32-bit float. -/
def single
    (s : Style)
    (x : Float32) :
    String :=
  s.render Format.single (readSingle x)

/-- Text of a 64-bit float. -/
def double
    (s : Style)
    (x : Float) :
    String :=
  s.render Format.double (readDouble x)

end Style

end Number
end SlotFlow
