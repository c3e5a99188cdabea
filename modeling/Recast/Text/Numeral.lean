/-!
Decimal numerals: how a natural number is written, and what a run of digits is worth. Numerals of
more than `limit` digits are neither read nor written.
-/

namespace Recast.Text.Numeral

/-- The digits of a number, without leading zeros; zero is one digit. -/
def write (n : Nat) : List Char := Nat.toDigits 10 n

/-- The value of a run of digits; the empty run is worth zero. -/
def value (digits : List Char) : Nat :=
  digits.foldl (fun n d => 10 * n + (d.toNat - '0'.toNat)) 0

/-- The longest numeral that is read or written. -/
def limit : Nat := 4300

/-- The value of a run of digits, or the number of its digits when there are too many. -/
def read (digits : List Char) : Except Nat Nat :=
  if digits.length ≤ limit then .ok (value digits) else .error digits.length

/-- Whether a number's numeral is short enough to be written. -/
def isWritable (n : Nat) : Bool := (write n).length ≤ limit

/-- An integer's numeral, with a minus sign in front of a negative one. -/
def writeInt (n : Int) : List Char :=
  if n < 0 then '-' :: write n.natAbs else write n.natAbs

/-- The four low bits of a number as a hexadecimal digit. -/
def hexDigit (n : Nat) : Char :=
  let d := n % 16
  Char.ofNat (if d < 10 then '0'.toNat + d else 'a'.toNat + (d - 10))

/-- The last `width` hexadecimal digits of a number. -/
def hex : Nat → Nat → List Char
  | 0, _ => []
  | width + 1, n => hex width (n / 16) ++ [hexDigit n]

/-- The value of a hexadecimal digit of either case. -/
def hexValue? (c : Char) : Option Nat :=
  if '0' ≤ c ∧ c ≤ '9' then some (c.toNat - '0'.toNat)
  else if 'a' ≤ c ∧ c ≤ 'f' then some (c.toNat - 'a'.toNat + 10)
  else if 'A' ≤ c ∧ c ≤ 'F' then some (c.toNat - 'A'.toNat + 10)
  else none

theorem length_hex (width n : Nat) : (hex width n).length = width := by
  induction width generalizing n with
  | zero => rfl
  | succ w ih => simp [hex, ih]

end Recast.Text.Numeral
