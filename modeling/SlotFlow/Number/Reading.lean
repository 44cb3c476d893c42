/-!
# What a float stands for

A binary float is read into its sign, an integer mantissa and a power of two, so
that everything core leaves to the machine (changes of format, cuts to integers,
remainders) is computed exactly on integers and rounded once.

Main definitions:

* `Reading`: not a number, an infinity, or a finite signed `mantissa · 2 ^ exponent`;
* `Format.read`: the reading of a bit pattern;
* `Reading.toSingle`, `Reading.toDouble`: the nearest float, ties to even;
* `Reading.saturate`: the integer part, kept inside a range;
* `Reading.remainder`: the remainder that has the sign of the dividend.
-/

namespace SlotFlow
namespace Number

/-- Layout of a binary interchange format. -/
structure Format where
  /-- Stored bits of the mantissa. -/
  mantissaBits : Nat
  /-- Bits of the exponent field. -/
  exponentBits : Nat
  /-- Power of two that the least positive float stands for. -/
  minExponent : Int
deriving DecidableEq

/-- The 32-bit format. -/
def Format.single : Format :=
  ⟨23, 8, -149⟩

/-- The 64-bit format. -/
def Format.double : Format :=
  ⟨52, 11, -1074⟩

/-- The meaning of a float; all patterns that are not a number are one. -/
inductive Reading where
  | nan
  | infinite (negative : Bool)
  | finite (negative : Bool) (mantissa : Nat) (exponent : Int)
deriving DecidableEq

/-- Reads a bit pattern. -/
def Format.read
    (f : Format)
    (bits : Nat) :
    Reading :=
  let negative := bits.testBit (f.mantissaBits + f.exponentBits)
  let field := bits / Nat.pow 2 f.mantissaBits % Nat.pow 2 f.exponentBits
  let fraction := bits % Nat.pow 2 f.mantissaBits
  if field = Nat.pow 2 f.exponentBits - 1 then
    if fraction = 0 then .infinite negative else .nan
  else if field = 0 then
    .finite negative fraction f.minExponent
  else
    .finite negative (fraction + Nat.pow 2 f.mantissaBits) (f.minExponent + field - 1)

/-- The meaning of a 32-bit float. -/
def readSingle
    (x : Float32) :
    Reading :=
  Format.single.read x.toBits.toNat

/-- The meaning of a 64-bit float. -/
def readDouble
    (x : Float) :
    Reading :=
  Format.double.read x.toBits.toNat

/--
The 32-bit float nearest to `m · 2 ^ q`. A negative power of two is turned into a
negative power of ten, so that one rounding from decimal does the work.
-/
def singleOfBinary
    (m : Nat) :
    Int → Float32
  | Int.ofNat k => Float32.ofScientific (m * Nat.pow 2 k) false 0
  | Int.negSucc k => Float32.ofScientific (m * Nat.pow 5 (k + 1)) true (k + 1)

/-- The 64-bit float nearest to `m · 2 ^ q`. -/
def doubleOfBinary
    (m : Nat) :
    Int → Float
  | Int.ofNat k => Float.ofScientific (m * Nat.pow 2 k) false 0
  | Int.negSucc k => Float.ofScientific (m * Nat.pow 5 (k + 1)) true (k + 1)

namespace Reading

/-- The 32-bit float nearest to a reading. -/
def toSingle : Reading → Float32
  | nan => 0.0 / 0.0
  | infinite negative => if negative then -1.0 / 0.0 else 1.0 / 0.0
  | finite negative m q =>
      let x := singleOfBinary m q
      if negative then -x else x

/-- The 64-bit float nearest to a reading. -/
def toDouble : Reading → Float
  | nan => 0.0 / 0.0
  | infinite negative => if negative then -1.0 / 0.0 else 1.0 / 0.0
  | finite negative m q =>
      let x := doubleOfBinary m q
      if negative then -x else x

/-- The integer part of `m · 2 ^ q`. -/
def wholePart
    (m : Nat) :
    Int → Nat
  | Int.ofNat k => m * Nat.pow 2 k
  | Int.negSucc k => m / Nat.pow 2 (k + 1)

/--
Cuts toward zero and stays between `low` and `high`; what is not a number counts
as zero.
-/
def saturate
    (low high : Int) :
    Reading → Int
  | nan => 0
  | infinite negative => if negative then low else high
  | finite negative m q =>
      let n : Int := wholePart m q
      max low (min high (if negative then -n else n))

/--
Remainder of a division that is cut toward zero: the sign is the dividend's, also
on a zero. An infinite dividend or a zero divisor has none.
-/
def remainder : Reading → Reading → Reading
  | finite negative m q, finite _ n r =>
      if n = 0 then
        nan
      else
        let e := min q r
        finite negative (m * Nat.pow 2 (q - e).toNat % (n * Nat.pow 2 (r - e).toNat)) e
  | finite negative m q, infinite _ => finite negative m q
  | _, _ => nan

end Reading

/-- The 64-bit float of the same value. -/
def widen
    (x : Float32) :
    Float :=
  (readSingle x).toDouble

/-- The nearest 32-bit float. -/
def narrow
    (x : Float) :
    Float32 :=
  (readDouble x).toSingle

/-- Remainder of 32-bit floats. -/
def singleRemainder
    (x y : Float32) :
    Float32 :=
  ((readSingle x).remainder (readSingle y)).toSingle

/-- Remainder of 64-bit floats. -/
def doubleRemainder
    (x y : Float) :
    Float :=
  ((readDouble x).remainder (readDouble y)).toDouble

/-- The nearest integer toward zero among the signed 32-bit numbers. -/
def Reading.toInt32
    (r : Reading) :
    Int32 :=
  Int32.ofInt (r.saturate (-2147483648) 2147483647)

/-- The nearest integer toward zero among the signed 64-bit numbers. -/
def Reading.toInt64
    (r : Reading) :
    Int64 :=
  Int64.ofInt (r.saturate (-9223372036854775808) 9223372036854775807)

end Number
end SlotFlow
