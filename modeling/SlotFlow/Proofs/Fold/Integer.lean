import Mathlib.Algebra.Ring.Int.Defs
import Mathlib.Algebra.Ring.Nat
import SlotFlow.Proofs.Fold

/-!
# Exact integer arithmetic

What folding makes of integers is stated in the integers: the exact result is reduced to
the range of the width, division truncates toward zero, a shift multiplies or divides by a
power of two. Ints and longs differ in their width only, so that each operation is treated
once, on words of any width, and both are instances.

Main definitions:

* `Represents`: an integer of a width stands for an exact one;
* `Operation`, `Shift`: operations on two integers of a width, and shifts;
* `Operation.Gives`, `Shift.Gives`: what they give, in the integers;
* `Operation.onWords`, `Shift.onWord`: how they are carried out on words.

Main statements:

* `Operation.onWords_gives`, `Shift.onWord_gives`: words of any width;
* `fold2_ints`, `fold2_longs`, `fold2_shiftInt`, `fold2_shiftLong`: folding carries
  operations out on words;
* `fold_exact`: folding of integers.
-/

namespace SlotFlow
namespace Fold

/-- The bit of an integer at a place; negative ones have infinitely many. -/
def bit
    (n : Int)
    (place : Nat) :
    Bool :=
  n / 2 ^ place % 2 = 1

/-- The integer in the signed range of a width that is the exact one modulo the width. -/
structure Represents
    (width : Nat)
    (exact value : Int) : Prop where
  lower : -2 ^ (width - 1) ≤ value
  upper : value < 2 ^ (width - 1)
  congruent : (2 : Int) ^ width ∣ value - exact

/-- Operations on two integers of a width. -/
inductive Operation where
  | add
  | sub
  | mul
  /-- The quotient. -/
  | div
  /-- The remainder. -/
  | rem
  | and
  | or
  | xor
deriving DecidableEq

namespace Operation

/-- Whether there is no result for a zero on the right. -/
def divides : Operation → Bool
  | div | rem => true
  | _ => false

/-- What an operation on two integers gives. -/
def Gives
    (width : Nat)
    (a b value : Int) :
    Operation → Prop
  | add => Represents width (a + b) value
  | sub => Represents width (a - b) value
  | mul => Represents width (a * b) value
  | div => Represents width (a.tdiv b) value
  | rem =>
      (value = 0 ∨ value.sign = a.sign) ∧ value.natAbs < b.natAbs ∧
        ∀ quotient, Represents width (a.tdiv b) quotient →
          (2 : Int) ^ width ∣ a - (quotient * b + value)
  | and => ∀ place, bit value place = (bit a place && bit b place)
  | or => ∀ place, bit value place = (bit a place || bit b place)
  | xor => ∀ place, bit value place = (bit a place ^^ bit b place)

/-- The operation on words. -/
def onWords
    {width : Nat}
    (x y : BitVec width) :
    Operation → BitVec width
  | add => x + y
  | sub => x - y
  | mul => x * y
  | div => x.sdiv y
  | rem => x.srem y
  | and => x &&& y
  | or => x ||| y
  | xor => x ^^^ y

/-- The instruction on ints. -/
def ofInts : Operation → Opcode
  | add => .iadd
  | sub => .isub
  | mul => .imul
  | div => .idiv
  | rem => .irem
  | and => .iand
  | or => .ior
  | xor => .ixor

/-- The instruction on longs. -/
def ofLongs : Operation → Opcode
  | add => .ladd
  | sub => .lsub
  | mul => .lmul
  | div => .ldiv
  | rem => .lrem
  | and => .land
  | or => .lor
  | xor => .lxor

end Operation

/-- Shifts of an integer of a width. -/
inductive Shift where
  | left
  /-- Copies of the sign come in. -/
  | right
  /-- Zeros come in. -/
  | unsignedRight
deriving DecidableEq

namespace Shift

/-- The number of places that a count stands for. -/
def places
    (width : Nat)
    (count : Int) :
    Nat :=
  (count % width).toNat

/-- What a shift of an integer gives. -/
def Gives
    (width : Nat)
    (a count value : Int) :
    Shift → Prop
  | left => Represents width (a * 2 ^ places width count) value
  | right => value = a / 2 ^ places width count
  | unsignedRight => Represents width (a % 2 ^ width / 2 ^ places width count) value

/-- The shift of a word. -/
def onWord
    {width : Nat}
    (x : BitVec width)
    (places : Nat) :
    Shift → BitVec width
  | left => x <<< places
  | right => x.sshiftRight places
  | unsignedRight => x >>> places

/-- The instruction on an int. -/
def ofInt : Shift → Opcode
  | left => .ishl
  | right => .ishr
  | unsignedRight => .iushr

/-- The instruction on a long. -/
def ofLong : Shift → Opcode
  | left => .lshl
  | right => .lshr
  | unsignedRight => .lushr

end Shift

section Words

variable {width : Nat}

/-- A word stands for what it is modulo its width. -/
theorem represents_of_bmod
    {x : BitVec width}
    {exact : Int}
    (h : x.toInt = exact.bmod (2 ^ width)) :
    Represents width exact x.toInt where
  lower := x.le_toInt
  upper := BitVec.toInt_lt
  congruent := by
    rw [h]
    exact_mod_cast Int.dvd_bmod_sub_self

/-- The lowest bit of a word says whether it is odd. -/
theorem toInt_emod_two
    (x : BitVec width)
    (hwidth : 0 < width) :
    x.toInt % 2 = 1 ↔ x.getLsbD 0 = true := by
  obtain ⟨w, rfl⟩ : ∃ w, width = w + 1 := ⟨width - 1, by omega⟩
  have hpower : (2 : Nat) ^ (w + 1) = 2 * 2 ^ w := by rw [Nat.pow_succ, Nat.mul_comm]
  have hlowest : x.getLsbD 0 = true ↔ x.toNat % 2 = 1 := by
    simp [BitVec.getLsbD, Nat.testBit_zero]
  rw [hlowest, BitVec.toInt_eq_toNat_cond, hpower]
  split <;> omega

/-- The bits of a word, and then copies of its sign. -/
theorem bit_toInt
    (x : BitVec width)
    (place : Nat)
    (hwidth : 0 < width) :
    bit x.toInt place = if place < width then x.getLsbD place else x.msb := by
  have hshifted : x.toInt / 2 ^ place = (x.sshiftRight place).toInt := by
    rw [BitVec.toInt_sshiftRight, Int.shiftRight_eq_div_pow]
    norm_cast
  have hlowest := toInt_emod_two (x.sshiftRight place) hwidth
  rw [BitVec.getLsbD_sshiftRight] at hlowest
  have hinside : decide (width ≤ 0) = false := by simp; omega
  simp only [hinside, Bool.not_false, Bool.true_and, Nat.add_zero] at hlowest
  rw [bit, hshifted, Bool.eq_iff_iff, decide_eq_true_iff]
  exact hlowest

/-- What is done bit by bit on words is done so on integers. -/
theorem bit_toInt_of_bits
    {x y z : BitVec width}
    (f : Bool → Bool → Bool)
    (hwidth : 0 < width)
    (h : ∀ place, place < width → z.getLsbD place = f (x.getLsbD place) (y.getLsbD place))
    (place : Nat) :
    bit z.toInt place = f (bit x.toInt place) (bit y.toInt place) := by
  rw [bit_toInt z place hwidth, bit_toInt x place hwidth, bit_toInt y place hwidth]
  split
  · exact h place (by assumption)
  · simp only [BitVec.msb_eq_getLsbD_last]
    exact h (width - 1) (by omega)

/-- The remainder has the sign of the dividend, is smaller than the divisor, and completes it. -/
theorem remainder_gives
    {a b value : Int}
    (hb : b ≠ 0)
    (hvalue : value = a.tmod b) :
    Operation.rem.Gives width a b value := by
  subst hvalue
  refine ⟨?_, ?_, ?_⟩
  · rw [← Int.sign_eq_zero_iff_zero, Int.sign_tmod]
    split
    · exact .inl rfl
    · exact .inr rfl
  · rw [Int.natAbs_tmod]
    exact Nat.mod_lt _ (Int.natAbs_pos.2 hb)
  · intro quotient hquotient
    obtain ⟨k, hk⟩ := hquotient.congruent
    have hexact := Int.tdiv_mul_add_tmod a b
    refine ⟨-(k * b), ?_⟩
    have hq : quotient = a.tdiv b + 2 ^ width * k := by omega
    rw [hq]
    grind

/-- An operation on words gives what it should of the integers that they stand for. -/
theorem Operation.onWords_gives
    (o : Operation)
    (x y : BitVec width)
    (hwidth : 0 < width)
    (hdefined : o.divides = true → y.toInt ≠ 0) :
    o.Gives width x.toInt y.toInt (o.onWords x y).toInt := by
  cases o with
  | add =>
      exact represents_of_bmod (BitVec.toInt_add x y)
  | sub =>
      exact represents_of_bmod BitVec.toInt_sub
  | mul =>
      exact represents_of_bmod (BitVec.toInt_mul x y)
  | div =>
      exact represents_of_bmod (BitVec.toInt_sdiv x y)
  | rem =>
      exact remainder_gives (hdefined rfl) (BitVec.toInt_srem x y)
  | and =>
      exact bit_toInt_of_bits Bool.and hwidth fun _ _ => BitVec.getLsbD_and
  | or =>
      exact bit_toInt_of_bits Bool.or hwidth fun _ _ => BitVec.getLsbD_or
  | xor =>
      exact bit_toInt_of_bits Bool.xor hwidth fun _ _ => BitVec.getLsbD_xor

/-- The number that a word is without its sign. -/
theorem toInt_emod_width
    (x : BitVec width) :
    x.toInt % 2 ^ width = x.toNat := by
  have hmod : x.toInt % ((2 ^ width : Nat) : Int) = x.toNat % ((2 ^ width : Nat) : Int) := by
    rw [BitVec.toInt_eq_toNat_bmod, Int.bmod_emod]
  have hlt : (x.toNat : Int) < ((2 ^ width : Nat) : Int) := by exact_mod_cast x.isLt
  rw [Int.emod_eq_of_lt (Int.natCast_nonneg _) hlt] at hmod
  exact_mod_cast hmod

/-- The shift of a word gives what it should of the integer that it stands for. -/
theorem Shift.onWord_gives
    (s : Shift)
    (x : BitVec width)
    (count : Int) :
    s.Gives width x.toInt count (s.onWord x (places width count)).toInt := by
  generalize hplaces : places width count = n
  cases s with
  | left =>
      rw [Gives, hplaces]
      apply represents_of_bmod
      have hpower : ((x.toNat <<< n : Nat) : Int) = x.toNat * 2 ^ n := by
        rw [Nat.shiftLeft_eq]
        norm_cast
      rw [onWord, BitVec.toInt_shiftLeft, hpower, x.toInt_eq_toNat_bmod, Int.bmod_mul_bmod]
  | right =>
      rw [Gives, hplaces, onWord, BitVec.toInt_sshiftRight, Int.shiftRight_eq_div_pow]
      norm_cast
  | unsignedRight =>
      rw [Gives, hplaces, toInt_emod_width]
      apply represents_of_bmod
      rw [onWord, BitVec.toInt_eq_toNat_bmod, BitVec.toNat_ushiftRight,
        Nat.shiftRight_eq_div_pow]
      norm_cast

end Words

section Instances

variable (a b : Int32) (x y : Int64)

/-- The places of a count that is taken modulo a positive number, as words are. -/
theorem toNat_smod
    {width : Nat}
    (count modulus : BitVec width)
    (h : 0 < modulus.toInt) :
    (count.smod modulus).toNat = (count.toInt % modulus.toInt).toNat := by
  have hint : (count.smod modulus).toInt = count.toInt % modulus.toInt := by
    rw [BitVec.toInt_smod, Int.fmod_eq_emod_of_nonneg _ (Int.le_of_lt h)]
  have hnonneg := Int.emod_nonneg count.toInt (Int.ne_of_gt h)
  have hmsb : (count.smod modulus).msb = false := by
    rw [BitVec.msb_eq_toInt, hint, decide_eq_false_iff_not]
    omega
  rw [← hint, BitVec.toNat_toInt_of_msb _ hmsb]

/-- The places of a count are those of the number that its word is without sign. -/
theorem toNat_umod_width
    {width : Nat}
    (count : BitVec width)
    {modulus : Nat}
    (h : modulus ∣ 2 ^ width) :
    count.toNat % modulus = Shift.places modulus count.toInt := by
  have hdvd : (modulus : Int) ∣ 2 ^ width := by exact_mod_cast h
  rw [Shift.places, ← Int.emod_emod_of_dvd _ hdvd, toInt_emod_width]
  norm_cast

/-- Ints are folded as words of 32 bits; nothing is known of a division by zero. -/
theorem fold2_ints
    (o : Operation) :
    fold2 o.ofInts (.int a) (.int b) =
      .ok (if o.divides = true ∧ b.toInt = 0 then .unknown
        else .int (Int32.ofBitVec (o.onWords a.toBitVec b.toBitVec))) := by
  have hzero : b.toInt = 0 ↔ b = 0 := Int32.toInt_inj (y := 0)
  cases o with
  | div | rem =>
      simp only [Operation.divides, hzero, true_and]
      rfl
  | _ =>
      rfl

/-- Longs are folded as words of 64 bits; nothing is known of a division by zero. -/
theorem fold2_longs
    (o : Operation) :
    fold2 o.ofLongs (.long x) (.long y) =
      .ok (if o.divides = true ∧ y.toInt = 0 then .unknown
        else .long (Int64.ofBitVec (o.onWords x.toBitVec y.toBitVec))) := by
  have hzero : y.toInt = 0 ↔ y = 0 := Int64.toInt_inj (y := 0)
  cases o with
  | div | rem =>
      simp only [Operation.divides, hzero, true_and]
      rfl
  | _ =>
      rfl

/-- The shift of an int is that of a word of 32 bits. -/
theorem fold2_shiftInt
    (s : Shift) :
    fold2 s.ofInt (.int a) (.int b) =
      .ok (.int (Int32.ofBitVec (s.onWord a.toBitVec (Shift.places 32 b.toInt)))) := by
  cases s with
  | left | right =>
      have hplaces : (b.toBitVec.smod 32#32).toNat = Shift.places 32 b.toInt :=
        toNat_smod b.toBitVec 32#32 (by decide)
      rw [← hplaces]
      rfl
  | unsignedRight =>
      have hplaces : b.toBitVec.toNat % 32 = Shift.places 32 b.toInt :=
        toNat_umod_width b.toBitVec (by decide)
      rw [← hplaces]
      rfl

/-- The shift of a long is that of a word of 64 bits; its count is an int. -/
theorem fold2_shiftLong
    (s : Shift) :
    fold2 s.ofLong (.long x) (.int b) =
      .ok (.long (Int64.ofBitVec (s.onWord x.toBitVec (Shift.places 64 b.toInt)))) := by
  have hcount : b.toInt64.toBitVec.toInt = b.toInt := Int32.toInt_toInt64 b
  cases s with
  | left | right =>
      have hplaces : (b.toInt64.toBitVec.smod 64#64).toNat = Shift.places 64 b.toInt := by
        rw [← hcount]
        exact toNat_smod b.toInt64.toBitVec 64#64 (by decide)
      rw [← hplaces]
      rfl
  | unsignedRight =>
      have hplaces : b.toInt64.toBitVec.toNat % 64 = Shift.places 64 b.toInt := by
        rw [← hcount]
        exact toNat_umod_width b.toInt64.toBitVec (by decide)
      rw [← hplaces]
      rfl

/-- The order of two longs is the sign of their difference. -/
theorem toInt_comparison :
    (comparison (x < y) (x = y)).toInt = (x.toInt - y.toInt).sign := by
  have hless : x < y ↔ x.toInt < y.toInt := Int64.lt_iff_toInt_lt
  have hequal : x = y ↔ x.toInt = y.toInt := Int64.toInt_inj.symm
  simp only [comparison, hless, hequal, decide_eq_true_eq]
  rcases Int.lt_trichotomy x.toInt y.toInt with h | h | h
  · rw [if_pos h, Int.sign_eq_neg_one_of_neg (by omega)]
    rfl
  · rw [if_neg (by omega), if_pos h, h, Int.sub_self]
    rfl
  · rw [if_neg (by omega), if_neg (by omega), Int.sign_eq_one_of_pos (by omega)]
    rfl

/-- A char is the number that the lowest 16 bits are without sign. -/
theorem toInt_char :
    a.toUInt32.toUInt16.toUInt32.toInt32.toInt = a.toInt % 2 ^ 16 := by
  have hunsigned : a.toInt % 2 ^ 32 = a.toUInt32.toNat := toInt_emod_width a.toBitVec
  have hchar : a.toUInt32.toUInt16.toUInt32.toNat = a.toUInt32.toNat % 2 ^ 16 := by
    rw [UInt16.toNat_toUInt32, UInt32.toNat_toUInt16]
  have hvalue : a.toUInt32.toUInt16.toUInt32.toInt32.toInt =
      Int.bmod a.toUInt32.toUInt16.toUInt32.toNat (2 ^ 32) :=
    BitVec.toInt_eq_toNat_bmod _
  rw [hchar, Int.bmod_eq_of_le (by omega) (by omega)] at hvalue
  rw [hvalue]
  omega

/-- Narrowing an int and widening it again gives its representative in the narrow range. -/
theorem represents_byte :
    Represents 8 a.toInt a.toInt8.toInt32.toInt := by
  rw [Int8.toInt_toInt32]
  exact represents_of_bmod (x := a.toInt8.toBitVec) (Int32.toInt_toInt8 a)

theorem represents_short :
    Represents 16 a.toInt a.toInt16.toInt32.toInt := by
  rw [Int16.toInt_toInt32]
  exact represents_of_bmod (x := a.toInt16.toBitVec) (Int32.toInt_toInt16 a)

end Instances

/-- Folding ends with a result or with the report of a mismatch. -/
def Settles
    (op : Opcode)
    (result : Except Fault Literal) :
    Prop :=
  (∃ v, result = .ok v) ∨ ∃ found, result = .error (.literalMismatch op op.expectedKinds found)

theorem fold1_settles
    (op : Opcode)
    (l : Literal) :
    Settles op (fold1 op l) := by
  cases h : fold1 op l with
  | ok v =>
      exact .inl ⟨v, rfl⟩
  | error e =>
      obtain ⟨found, rfl⟩ := fold1_error h
      exact .inr ⟨found, rfl⟩

theorem fold2_settles
    (op : Opcode)
    (l r : Literal) :
    Settles op (fold2 op l r) := by
  cases h : fold2 op l r with
  | ok v =>
      exact .inl ⟨v, rfl⟩
  | error e =>
      obtain ⟨found, rfl⟩ := fold2_error h
      exact .inr ⟨found, rfl⟩

/--
Folding of integers is exact. An operation on ints or longs gives the exact result in the
range of its width, and is unknown for a zero divisor and only then. A shift counts modulo
the width. Negations and conversions give the representative of the operand in the range
of the result. Longs compare by the sign of their exact difference. Folding operands of
whatever kind ends with a result or with the report of a mismatch.
-/
theorem fold_exact :
    (∀ (o : Operation) (a b : Int32),
      if o.divides = true ∧ b.toInt = 0 then fold2 o.ofInts (.int a) (.int b) = .ok .unknown
      else ∃ c : Int32, fold2 o.ofInts (.int a) (.int b) = .ok (.int c) ∧
        o.Gives 32 a.toInt b.toInt c.toInt) ∧
    (∀ (o : Operation) (x y : Int64),
      if o.divides = true ∧ y.toInt = 0 then fold2 o.ofLongs (.long x) (.long y) = .ok .unknown
      else ∃ z : Int64, fold2 o.ofLongs (.long x) (.long y) = .ok (.long z) ∧
        o.Gives 64 x.toInt y.toInt z.toInt) ∧
    (∀ (s : Shift) (a count : Int32), ∃ c : Int32,
      fold2 s.ofInt (.int a) (.int count) = .ok (.int c) ∧
        s.Gives 32 a.toInt count.toInt c.toInt) ∧
    (∀ (s : Shift) (x : Int64) (count : Int32), ∃ z : Int64,
      fold2 s.ofLong (.long x) (.int count) = .ok (.long z) ∧
        s.Gives 64 x.toInt count.toInt z.toInt) ∧
    (∀ x y : Int64, ∃ c : Int32, fold2 .lcmp (.long x) (.long y) = .ok (.int c) ∧
      c.toInt = (x.toInt - y.toInt).sign) ∧
    (∀ a : Int32,
      (∃ c : Int32, fold1 .ineg (.int a) = .ok (.int c) ∧ Represents 32 (-a.toInt) c.toInt) ∧
      (∃ x : Int64, fold1 .i2l (.int a) = .ok (.long x) ∧ x.toInt = a.toInt) ∧
      (∃ c : Int32, fold1 .i2b (.int a) = .ok (.int c) ∧ Represents 8 a.toInt c.toInt) ∧
      (∃ c : Int32, fold1 .i2s (.int a) = .ok (.int c) ∧ Represents 16 a.toInt c.toInt) ∧
      (∃ c : Int32, fold1 .i2c (.int a) = .ok (.int c) ∧ 0 ≤ c.toInt ∧ c.toInt ≤ 65535 ∧
        (2 : Int) ^ 16 ∣ c.toInt - a.toInt)) ∧
    (∀ x : Int64,
      (∃ y : Int64, fold1 .lneg (.long x) = .ok (.long y) ∧ Represents 64 (-x.toInt) y.toInt) ∧
      (∃ c : Int32, fold1 .l2i (.long x) = .ok (.int c) ∧ Represents 32 x.toInt c.toInt)) ∧
    (∀ op l, Settles op (fold1 op l)) ∧
    ∀ op l r, Settles op (fold2 op l r) := by
  refine ⟨?_, ?_, ?_, ?_, ?_, ?_, ?_, fold1_settles, fold2_settles⟩
  · intro o a b
    rw [fold2_ints]
    split
    · rfl
    · rename_i hdefined
      exact ⟨_, rfl, o.onWords_gives a.toBitVec b.toBitVec (by decide) fun hdivides hzero =>
        hdefined ⟨hdivides, hzero⟩⟩
  · intro o x y
    rw [fold2_longs]
    split
    · rfl
    · rename_i hdefined
      exact ⟨_, rfl, o.onWords_gives x.toBitVec y.toBitVec (by decide) fun hdivides hzero =>
        hdefined ⟨hdivides, hzero⟩⟩
  · intro s a count
    exact ⟨_, fold2_shiftInt a count s, s.onWord_gives a.toBitVec count.toInt⟩
  · intro s x count
    exact ⟨_, fold2_shiftLong count x s, s.onWord_gives x.toBitVec count.toInt⟩
  · intro x y
    exact ⟨_, rfl, toInt_comparison x y⟩
  · intro a
    have hchar := toInt_char a
    refine ⟨⟨_, rfl, represents_of_bmod (Int32.toInt_neg a)⟩, ⟨_, rfl, Int32.toInt_toInt64 a⟩,
      ⟨_, rfl, represents_byte a⟩, ⟨_, rfl, represents_short a⟩, ⟨_, rfl, ?_, ?_, ?_⟩⟩ <;> omega
  · intro x
    exact ⟨⟨_, rfl, represents_of_bmod (Int64.toInt_neg x)⟩,
      ⟨_, rfl, represents_of_bmod (Int64.toInt_toInt32 x)⟩⟩

/-- The least int divided by -1 is itself again, and a shift by -1 is one by 31 places. -/
example :
    fold2 .idiv (.int Int32.minValue) (.int (-1)) = .ok (.int Int32.minValue) ∧
      fold2 .ishl (.int 3) (.int (-1)) = .ok (.int Int32.minValue) :=
  ⟨rfl, rfl⟩

end Fold
end SlotFlow
