/-!
# Tabletop.Text.Decimal

Decimal numerals and the limit on how long one may be.

1. A *run* is a list of ASCII digits; `value` is the number it stands for,
   leading zeros allowed.
2. `ofNat` and `ofInt` write a number with no leading zero and, for a
   negative one, a minus sign in front.
3. Conversion between a number and its digits is refused past `limit`
   digits, in both directions: `value?` counts the leading zeros of a run,
   `ofInt?` counts the digits it would have to write.
-/

namespace Tabletop.Text.Decimal

/-- Most digits that are converted to a number, or written for one. -/
def limit : Nat := 4300

/-- A list of ASCII digits and nothing else. -/
def IsRun (digits : List Char) : Prop := ∀ c ∈ digits, c.isDigit = true

instance (digits : List Char) : Decidable (IsRun digits) := List.decidableBAll _ digits

/-! ## From digits to numbers -/

/-- The number that a run of digits stands for; `0` for the empty run. -/
def value (digits : List Char) : Nat := Nat.ofDigitChars 10 digits 0

/-- The number that a run stands for, unless the run is longer than `limit`. -/
def value? (digits : List Char) : Option Nat :=
  if digits.length ≤ limit then some (value digits) else none

/-! ## From numbers to digits -/

/-- The digits of a natural number, without leading zeros. -/
def ofNat (n : Nat) : List Char := Nat.toDigits 10 n

/-- The digits of an integer, after a minus sign if it is negative. -/
def ofInt : Int → List Char
  | .ofNat n => ofNat n
  | .negSucc n => '-' :: ofNat (n + 1)

/-- Whether an integer has at most `limit` digits. -/
def Fits (n : Int) : Prop := (ofNat n.natAbs).length ≤ limit

instance (n : Int) : Decidable (Fits n) := inferInstanceAs (Decidable (_ ≤ _))

/-- The numeral of an integer, unless it has more than `limit` digits. -/
def ofInt? (n : Int) : Option (List Char) := if Fits n then some (ofInt n) else none

/-! ## Small facts -/

theorem isRun_cons {c : Char} {digits : List Char} :
    IsRun (c :: digits) ↔ c.isDigit = true ∧ IsRun digits := by
  simp [IsRun]

theorem toNat_bounds_of_isDigit {c : Char} (h : c.isDigit = true) :
    48 ≤ c.toNat ∧ c.toNat ≤ 57 := by
  simpa [Char.isDigit, UInt32.le_iff_toNat_le] using h

/-- A digit is none of the other characters. -/
theorem ne_of_isDigit {c d : Char} (hc : c.isDigit = true) (hd : d.isDigit = false) : c ≠ d := by
  rintro rfl
  rw [hc] at hd
  contradiction

/-- A zero in front does not matter. -/
theorem value_zero_cons (digits : List Char) : value ('0' :: digits) = value digits := by
  simp [value, Nat.ofDigitChars]

theorem isRun_ofNat (n : Nat) : IsRun (ofNat n) := fun _ h =>
  Nat.isDigit_of_mem_toDigits (by decide) (by decide) h

theorem ofNat_ne_nil (n : Nat) : ofNat n ≠ [] := Nat.toDigits_ne_nil

/-- Reading the digits of a number gives the number back. -/
theorem value_ofNat (n : Nat) : value (ofNat n) = n := Nat.ofDigitChars_ten_toDigits

theorem ofInt?_eq_some_iff {n : Int} {digits : List Char} :
    ofInt? n = some digits ↔ Fits n ∧ ofInt n = digits := by
  simp [ofInt?]

/-- A numeral is made of digits and minus signs. -/
theorem mem_ofInt {n : Int} {c : Char} (h : c ∈ ofInt n) : c = '-' ∨ c.isDigit = true := by
  cases n with
  | ofNat n => exact .inr (isRun_ofNat n c h)
  | negSucc n => exact (List.mem_cons.mp h).imp_right fun h => isRun_ofNat (n + 1) c h

end Tabletop.Text.Decimal
