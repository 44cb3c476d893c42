/-!
# Decimal numerals

Whole numbers as they stand in listings, switch keys and settings: written with
the fewest digits, read back with leading zeros and one sign allowed.

Main statements:

* `digits_isDigit`: a written natural number holds digits only;
* `natOfDigits_digits`: reading what was written gives the number back;
* `readNat_digits` and `readInt_renderInt`: the same with the checks on the form.
-/

namespace SlotFlow
namespace Text
namespace Decimal

/-- The digit for a number below ten. -/
def digitChar
    (n : Nat) :
    Char :=
  Char.ofNat (48 + n)

/-- The number an ASCII digit stands for. -/
def digitValue
    (c : Char) :
    Nat :=
  c.toNat - 48

/-- The digits of a natural number, most significant first, at least one. -/
def digits
    (n : Nat) :
    List Char :=
  if n < 10 then
    [digitChar n]
  else
    digits (n / 10) ++ [digitChar (n % 10)]
termination_by n

/-- The number that a row of digits stands for in base ten. -/
def natOfDigits
    (cs : List Char) :
    Nat :=
  cs.foldl (fun n c => 10 * n + digitValue c) 0

/-- Text of a natural number. -/
def renderNat
    (n : Nat) :
    String :=
  String.ofList (digits n)

/-- Text of an integer: a minus sign stands before a negative one. -/
def renderInt : Int → String
  | Int.ofNat n => renderNat n
  | Int.negSucc n => "-" ++ renderNat (n + 1)

/-- Reads a nonempty row of ASCII digits. -/
def readDigits?
    (cs : List Char) :
    Option Nat :=
  if cs.isEmpty || !cs.all Char.isDigit then
    none
  else
    some (natOfDigits cs)

/-- Reads a natural number; a plus sign may stand before it, a minus sign may not. -/
def readNat? : List Char → Option Nat
  | '+' :: cs => readDigits? cs
  | cs => readDigits? cs

/-- Reads an integer with an optional sign. -/
def readInt? : List Char → Option Int
  | '-' :: cs => (readDigits? cs).map (fun n => -(n : Int))
  | cs => (readNat? cs).map Int.ofNat

/-- Reads a natural number that is below `bound`. -/
def readNatBelow?
    (bound : Nat)
    (cs : List Char) :
    Option Nat :=
  (readNat? cs).filter (· < bound)

/-- Reads an integer from `low` to `high`. -/
def readIntBetween?
    (low high : Int)
    (cs : List Char) :
    Option Int :=
  (readInt? cs).filter (fun n => low ≤ n && n ≤ high)

/-- Reads a signed 32-bit number. -/
def readInt32?
    (cs : List Char) :
    Option Int32 :=
  (readIntBetween? (-2147483648) 2147483647 cs).map Int32.ofInt

/-- Reads a signed 64-bit number. -/
def readInt64?
    (cs : List Char) :
    Option Int64 :=
  (readIntBetween? (-9223372036854775808) 9223372036854775807 cs).map Int64.ofInt

/-- Reads an unsigned 8-bit number. -/
def readUInt8?
    (cs : List Char) :
    Option UInt8 :=
  (readNatBelow? 256 cs).map UInt8.ofNat

/-- Reads an unsigned 16-bit number. -/
def readUInt16?
    (cs : List Char) :
    Option UInt16 :=
  (readNatBelow? 65536 cs).map UInt16.ofNat

/-- Reads an unsigned 32-bit number. -/
def readUInt32?
    (cs : List Char) :
    Option UInt32 :=
  (readNatBelow? 4294967296 cs).map UInt32.ofNat

/-- A written digit is an ASCII digit. -/
theorem digitChar_isDigit
    {n : Nat}
    (hn : n < 10) :
    (digitChar n).isDigit = true := by
  have h : ∀ m : Fin 10, (digitChar m.val).isDigit = true := by
    decide
  exact h ⟨n, hn⟩

/-- A written digit stands for the number it was made from. -/
theorem digitValue_digitChar
    {n : Nat}
    (hn : n < 10) :
    digitValue (digitChar n) = n := by
  have h : ∀ m : Fin 10, digitValue (digitChar m.val) = m.val := by
    decide
  exact h ⟨n, hn⟩

/-- A written natural number has at least one digit. -/
theorem digits_ne_nil
    (n : Nat) :
    digits n ≠ [] := by
  rw [digits]
  split <;> simp

/-- A written natural number holds digits only. -/
theorem digits_isDigit
    (n : Nat) :
    ∀ c ∈ digits n, c.isDigit = true := by
  induction n using Nat.strongRecOn with
  | ind n ih =>
    rw [digits]
    split
    · rename_i h
      simpa using digitChar_isDigit h
    · rename_i h
      intro c hc
      rcases List.mem_append.1 hc with hc | hc
      · exact ih (n / 10) (by omega) c hc
      · rw [List.mem_singleton.1 hc]
        exact digitChar_isDigit (by omega)

/-- Reading the digits of a number gives the number back. -/
theorem natOfDigits_digits
    (n : Nat) :
    natOfDigits (digits n) = n := by
  induction n using Nat.strongRecOn with
  | ind n ih =>
    rw [digits]
    split
    · rename_i h
      simp [natOfDigits, digitValue_digitChar h]
    · rename_i h
      have hrest := ih (n / 10) (by omega)
      simp only [natOfDigits, List.foldl_append, List.foldl_cons, List.foldl_nil] at hrest ⊢
      rw [hrest, digitValue_digitChar (by omega)]
      omega

/-- A written natural number passes the check on its form. -/
theorem readDigits_digits
    (n : Nat) :
    readDigits? (digits n) = some n := by
  simp [readDigits?, natOfDigits_digits, digits_ne_nil, List.all_eq_true.2 (digits_isDigit n)]

/-- No digit is a sign. -/
theorem readNat_of_isDigit
    {cs : List Char}
    (h : ∀ c ∈ cs, c.isDigit = true) :
    readNat? cs = readDigits? cs := by
  unfold readNat?
  split
  · simp at h
  · rfl

/-- A written natural number is read back. -/
theorem readNat_digits
    (n : Nat) :
    readNat? (digits n) = some n := by
  rw [readNat_of_isDigit (digits_isDigit n), readDigits_digits]

/-- A written integer is read back. -/
theorem readInt_renderInt
    (i : Int) :
    readInt? (renderInt i).toList = some i := by
  cases i with
  | ofNat n =>
    have hread : readInt? (digits n) = (readNat? (digits n)).map Int.ofNat := by
      have hd := digits_isDigit n
      generalize digits n = cs at hd
      unfold readInt?
      split
      · simp at hd
      · rfl
    simp [renderInt, renderNat, hread, readNat_digits]
  | negSucc n =>
    simp [renderInt, renderNat, readInt?, readDigits_digits]
    omega

end Decimal
end Text
end SlotFlow
