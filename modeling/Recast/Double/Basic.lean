/-!
Double-precision numbers, held by the fields of their binary form, so that every operation is exact
arithmetic on natural numbers. There is one NaN. Main statements: a finite double is the fraction
`numerator / denominator`, it is integral exactly when the denominator divides the numerator, and
`toInt?` then gives that integer (`toInt?_mul_denominator`).
-/

namespace Recast

/-- The 52 bits of a fraction. -/
abbrev Double.Fraction := Fin (Nat.pow 2 52)

/-- A double. A finite one has a sign, a biased exponent and a fraction. -/
inductive Double where
  | nan
  | infinity (negative : Bool)
  | finite (negative : Bool) (exponent : Fin 2047) (fraction : Double.Fraction)
deriving DecidableEq

namespace Double

/-- A signed zero. -/
def zero (negative : Bool) : Double := .finite negative 0 0

/-- The integer that a finite double multiplies a power of two by, its sign left out. The exponent
field zero marks the doubles below the least normal one. -/
def significand (exponent : Fin 2047) (fraction : Fraction) : Nat :=
  if exponent.val = 0 then fraction.val else Nat.pow 2 52 + fraction.val

/-- The exponent of that power of two, raised by 1074 to be a natural number. -/
def scale (exponent : Fin 2047) : Nat := exponent.val - 1

/-- The numerator of a finite double as a fraction; the others count as zero. -/
def numerator : Double → Int
  | .finite negative exponent fraction =>
    let m : Nat := significand exponent fraction * Nat.pow 2 (scale exponent - 1074)
    if negative then -(m : Int) else m
  | _ => 0

/-- The denominator of a finite double as a fraction, a power of two. -/
def denominator : Double → Nat
  | .finite _ exponent _ => Nat.pow 2 (1074 - scale exponent)
  | _ => 1

def isFinite : Double → Bool
  | .finite .. => true
  | _ => false

/-- Whether a double is an integer. -/
def isIntegral (d : Double) : Bool :=
  d.isFinite && d.numerator % (d.denominator : Int) == 0

/-- The integer that a double is, if it is one. -/
def toInt? (d : Double) : Option Int :=
  if d.isIntegral then some (d.numerator / (d.denominator : Int)) else none

def isZero : Double → Bool
  | .finite _ exponent fraction => exponent.val = 0 && fraction.val = 0
  | _ => false

/-- Numeric equality of doubles: zeros of both signs are equal, and NaN equals nothing. -/
def numEq : Double → Double → Bool
  | .nan, _ => false
  | a, b => a = b || (a.isZero && b.isZero)

/-- Numeric equality of an integer and a double, without rounding either. -/
def eqInt (n : Int) (d : Double) : Bool :=
  d.isFinite && n * (d.denominator : Int) == d.numerator

/-- The double whose sign and remaining 63 bits are given; it is infinite from the first exponent on
that no finite double has. -/
def ofBits (negative : Bool) (bits : Nat) : Double :=
  if h : bits / Nat.pow 2 52 < 2047 then
    .finite negative ⟨bits / Nat.pow 2 52, h⟩ ⟨bits % Nat.pow 2 52, Nat.mod_lt _ (by decide)⟩
  else .infinity negative

theorem denominator_pos (d : Double) : 0 < d.denominator := by
  cases d with
  | nan => exact Nat.one_pos
  | infinity negative => exact Nat.one_pos
  | finite negative exponent fraction => exact Nat.pow_pos Nat.two_pos

theorem toInt?_mul_denominator (d : Double) (n : Int) (h : d.toInt? = some n) :
    n * (d.denominator : Int) = d.numerator := by
  unfold toInt? at h
  split at h
  · rename_i hi
    simp only [isIntegral, Bool.and_eq_true, beq_iff_eq] at hi
    injection h with h
    rw [← h]
    exact Int.ediv_mul_cancel (Int.dvd_of_emod_eq_zero hi.2)
  · cases h

end Double

end Recast
