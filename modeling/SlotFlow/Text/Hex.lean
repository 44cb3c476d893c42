/-!
# Hexadecimal numerals

Main statement:

* `valueOf?_fourDigits`: a code point below `10000` hex is read back from four digits.
-/

namespace SlotFlow
namespace Text
namespace Hex

/-- The lower-case digit for a number below sixteen. -/
def digitChar
    (n : Nat) :
    Char :=
  if n < 10 then Char.ofNat (48 + n) else Char.ofNat (87 + n)

/-- The number a hexadecimal digit stands for, in either case of letters. -/
def digitValue?
    (c : Char) :
    Option Nat :=
  let n := c.toNat
  if 48 ≤ n ∧ n ≤ 57 then some (n - 48)
  else if 97 ≤ n ∧ n ≤ 102 then some (n - 87)
  else if 65 ≤ n ∧ n ≤ 70 then some (n - 55)
  else none

/-- The lower-case digits of a number, most significant first, at least one. -/
def digits
    (n : Nat) :
    List Char :=
  if n < 16 then
    [digitChar n]
  else
    digits (n / 16) ++ [digitChar (n % 16)]
termination_by n

/-- The four last digits of a number. -/
def fourDigits
    (n : Nat) :
    List Char :=
  [digitChar (n / 4096 % 16), digitChar (n / 256 % 16), digitChar (n / 16 % 16),
    digitChar (n % 16)]

/-- The number that a row of hexadecimal digits stands for. -/
def valueFrom?
    (start : Nat) :
    List Char → Option Nat
  | [] => some start
  | c :: cs => (digitValue? c).bind fun d => valueFrom? (16 * start + d) cs

/-- Reads at least one digit; a plus sign may stand before them. -/
def valueOf? : List Char → Option Nat
  | [] => none
  | '+' :: cs => if cs.isEmpty then none else valueFrom? 0 cs
  | cs => valueFrom? 0 cs

/-- A digit stands for the number it was made from. -/
theorem digitValue_digitChar
    {n : Nat}
    (hn : n < 16) :
    digitValue? (digitChar n) = some n := by
  have h : ∀ m : Fin 16, digitValue? (digitChar m.val) = some m.val := by
    decide
  exact h ⟨n, hn⟩

/-- No digit is the plus sign. -/
theorem digitChar_ne_plus
    {n : Nat}
    (hn : n < 16) :
    digitChar n ≠ '+' := by
  have h : ∀ m : Fin 16, digitChar m.val ≠ '+' := by
    decide
  exact h ⟨n, hn⟩

/-- Four digits are enough for a number below `65536`. -/
theorem valueOf?_fourDigits
    {n : Nat}
    (hn : n < 65536) :
    valueOf? (fourDigits n) = some n := by
  have hplus := digitChar_ne_plus (n := n / 4096 % 16) (by omega)
  have hread :
      valueOf? (fourDigits n) = valueFrom? 0 (fourDigits n) := by
    unfold fourDigits valueOf?
    split
    · rename_i h
      simp at h
    · rename_i h
      simp [hplus] at h
    · rfl
  rw [hread]
  simp [fourDigits, valueFrom?, digitValue_digitChar (n := n / 4096 % 16) (by omega),
    digitValue_digitChar (n := n / 256 % 16) (by omega),
    digitValue_digitChar (n := n / 16 % 16) (by omega),
    digitValue_digitChar (n := n % 16) (by omega)]
  omega

end Hex
end Text
end SlotFlow
