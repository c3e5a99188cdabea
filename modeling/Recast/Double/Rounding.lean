import Recast.Double.Basic
import Recast.Text.Numeral

/-!
The double nearest to a fraction or to a decimal; halfway, the one whose last bit is zero. A value
too large for every finite double becomes infinite.
-/

namespace Recast.Double

/-- The quotient rounded to the nearest integer; halfway, to the even one. -/
def roundDiv (num den : Nat) : Nat :=
  let q := num / den
  let r := num % den
  if den < 2 * r ∨ (den = 2 * r ∧ q % 2 = 1) then q + 1 else q

/-- The greatest `e` with `2 ^ e ≤ num / den`, for positive numbers. -/
def floorLog2 (num den : Nat) : Int :=
  let e : Int := num.log2 - den.log2
  if num * Nat.pow 2 (-e).toNat < den * Nat.pow 2 e.toNat then e - 1 else e

/-- The double nearest to `num / den`. With `scale` the exponent of its last bit, raised by 1074,
the rounded quotient carries into the exponent field by itself, also where it reaches a power of
two. -/
def ofFraction (negative : Bool) (num den : Nat) : Double :=
  if num = 0 then zero negative
  else
    let scale := (floorLog2 num den - 52 + 1074).toNat
    let m := roundDiv (num * Nat.pow 2 (1074 - scale)) (den * Nat.pow 2 (scale - 1074))
    ofBits negative (scale * Nat.pow 2 52 + m)

/-- The double nearest to an integer, if it is finite. -/
def ofInt? (n : Int) : Option Double :=
  match ofFraction (n < 0) n.natAbs 1 with
  | .infinity _ => none
  | d => some d

/-- The double nearest to `digits * 10 ^ exponent`. Decimals far outside the range of the finite
doubles are settled by their order of magnitude alone. -/
def ofDecimal (negative : Bool) (digits : Nat) (exponent : Int) : Double :=
  let magnitude := exponent + (Text.Numeral.write digits).length
  if digits = 0 ∨ magnitude < -400 then zero negative
  else if 400 < magnitude then .infinity negative
  else ofFraction negative (digits * Nat.pow 10 exponent.toNat) (Nat.pow 10 (-exponent).toNat)

end Recast.Double
