import SlotFlow.Number.Reading

/-!
# Shortest decimals

The fewest digits that read back to the same float, and of those the nearest. The
numbers that round to a float form an interval; the coarsest decimal grid with a
point in that interval gives the fewest digits.

Main definitions:

* `Neighbourhood`: a float and the ends of its rounding interval, in quarter steps;
* `Neighbourhood.gridPoint?`: the point of one decimal grid that reads back;
* `shortest`: the decimal of the coarsest grid that has one.
-/

namespace SlotFlow
namespace Number

/-- The number `digits · 10 ^ exponent`. -/
structure Scaled where
  digits : Nat
  exponent : Int
deriving DecidableEq

/--
A positive float in quarters of its last place: the value, the distance to the
lower end of its rounding interval and to the upper end, and the worth of a
quarter as a power of two. The ends belong to the interval when `closed`.
-/
structure Neighbourhood where
  value : Nat
  below : Nat
  above : Nat
  exponent : Int
  closed : Bool

/--
The neighbourhood of `m · 2 ^ q`. The step below a power of two is half as wide,
except at the bottom of the format.
-/
def Format.neighbourhood
    (f : Format)
    (m : Nat)
    (q : Int) :
    Neighbourhood where
  value := 4 * m
  below := if m = Nat.pow 2 f.mantissaBits ∧ f.minExponent < q then 1 else 2
  above := 2
  exponent := q - 2
  closed := m % 2 = 0

namespace Neighbourhood

/--
The multiple of `10 ^ e` nearest to the value, if it or its neighbour lies in the
interval; a tie goes up.
-/
def gridPoint?
    (n : Neighbourhood)
    (e : Int) :
    Option Nat :=
  let unit := Nat.pow 2 n.exponent.toNat * Nat.pow 10 (-e).toNat
  let grid := Nat.pow 2 (-n.exponent).toNat * Nat.pow 10 e.toNat
  let value := n.value * unit
  let floor := value / grid
  let under := value - floor * grid
  let missing := grid - under
  let downFits := if n.closed then under ≤ n.below * unit else under < n.below * unit
  let upFits := if n.closed then missing ≤ n.above * unit else missing < n.above * unit
  if downFits ∧ (¬ upFits ∨ under < missing) then
    some floor
  else if upFits then
    some (floor + 1)
  else
    none

/-- Tries ever finer grids, from `10 ^ e` down. -/
def search
    (n : Neighbourhood) :
    Nat → Int → Scaled
  | 0, e => ⟨(n.gridPoint? e).getD 0, e⟩
  | fuel + 1, e =>
      match n.gridPoint? e with
      | some d => ⟨d, e⟩
      | none => n.search fuel (e - 1)

/--
A power of ten above the value: `30103 / 100000` is a little more than the decimal
logarithm of two.
-/
def ceilingExponent
    (n : Neighbourhood) :
    Int :=
  (n.value.log2 + n.exponent + 1) * 30103 / 100000 + 1

end Neighbourhood

/-- Moves zeros from the end of the digits into the exponent. -/
def Scaled.trim
    (d : Scaled) :
    Scaled :=
  if h : 0 < d.digits ∧ d.digits % 10 = 0 then
    trim ⟨d.digits / 10, d.exponent + 1⟩
  else
    d
termination_by d.digits
decreasing_by
  exact Nat.div_lt_self h.1 (by decide)

/--
The fewest digits that read back to `m · 2 ^ q`. No float needs a grid finer than
its seventeenth digit, which lies at most eighteen places below the first try.
-/
def shortest
    (f : Format)
    (m : Nat)
    (q : Int) :
    Scaled :=
  if m = 0 then
    ⟨0, 0⟩
  else
    let n := f.neighbourhood m q
    (n.search 20 n.ceilingExponent).trim

end Number
end SlotFlow
