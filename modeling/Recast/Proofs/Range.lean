import Mathlib.Tactic.Linarith
import Mathlib.Tactic.Positivity
import Recast.Double.Rounding

/-!
Which integers have a nearest double that is finite. Rounding a quotient to nearest reaches an even
number from half a unit below it on (`even_le_roundDiv`), so with 53 binary digits the carry out of
the last finite exponent comes half a unit below `2 ^ 1024`. Main statement: `ofInt?_eq_none_iff`.
-/

namespace Recast.Double

/-! ## Rounding a quotient -/

theorem roundDiv_eq (num den : Nat) :
    roundDiv num den = if den < 2 * (num % den) ∨ (den = 2 * (num % den) ∧ num / den % 2 = 1) then
      num / den + 1 else num / den := rfl

theorem div_le_roundDiv (num den : Nat) : num / den ≤ roundDiv num den := by
  rw [roundDiv_eq]
  split <;> omega

theorem roundDiv_le (num den : Nat) : roundDiv num den ≤ num / den + 1 := by
  rw [roundDiv_eq]
  split <;> omega

/-- A quotient is rounded up to an even number exactly from half a unit below that number on. -/
theorem even_le_roundDiv (k num : Nat) {den : Nat} (positive : 0 < den) :
    2 * (k + 1) ≤ roundDiv num den ↔ (4 * k + 3) * den ≤ 2 * num := by
  have whole := Nat.div_add_mod num den
  have part := Nat.mod_lt num positive
  rw [roundDiv_eq]
  generalize num / den = q at whole ⊢
  generalize num % den = r at whole part ⊢
  subst whole
  by_cases low : q ≤ 2 * k
  · have small : den * q ≤ den * (2 * k) := Nat.mul_le_mul_left den low
    constructor
    · intro reached
      split at reached <;> omega
    · intro large
      linarith
  · by_cases high : 2 * (k + 1) ≤ q
    · have large : den * (2 * (k + 1)) ≤ den * q := Nat.mul_le_mul_left den high
      constructor
      · intro _
        linarith
      · intro _
        split <;> omega
    · -- Here the quotient lies between an odd number and the even one, and a tie goes up.
      obtain rfl : q = 2 * k + 1 := by omega
      constructor
      · intro reached
        split at reached
        · rename_i up
          have half : den ≤ 2 * r := by omega
          linarith
        · omega
      · intro large
        have half : den ≤ 2 * r := by linarith
        have up : den < 2 * r ∨ den = 2 * r ∧ (2 * k + 1) % 2 = 1 := by omega
        rw [if_pos up]
        omega

/-! ## Integers -/

theorem floorLog2_one {num : Nat} (positive : num ≠ 0) : floorLog2 num 1 = num.log2 := by
  have power : 2 ^ num.log2 ≤ num := Nat.log2_self_le positive
  have exponent : ((num.log2 : Int) - (Nat.log2 1 : Nat)) = num.log2 := by
    rw [show Nat.log2 1 = 0 by decide]
    omega
  have below : ¬ num * Nat.pow 2 (-(num.log2 : Int)).toNat <
      1 * Nat.pow 2 (num.log2 : Int).toNat := by
    have nothing : (-(num.log2 : Int)).toNat = 0 := by omega
    rw [nothing, Int.toNat_natCast, Nat.one_mul]
    simpa using power
  simp only [floorLog2, exponent, if_neg below]

/-- An integer scaled to have 53 binary digits before the point, rounded to nearest. -/
def intDigits (num : Nat) : Nat :=
  roundDiv (num * 2 ^ (52 - num.log2)) (2 ^ (num.log2 - 52))

/-- The bits of the double nearest to an integer, its sign left out. -/
def intBits (num : Nat) : Nat := (num.log2 + 1022) * 2 ^ 52 + intDigits num

theorem ofFraction_one (negative : Bool) {num : Nat} (positive : num ≠ 0) :
    ofFraction negative num 1 = ofBits negative (intBits num) := by
  have scale : ((num.log2 : Int) - 52 + 1074).toNat = num.log2 + 1022 := by omega
  have up : 1074 - (num.log2 + 1022) = 52 - num.log2 := by omega
  have down : num.log2 + 1022 - 1074 = num.log2 - 52 := Nat.add_sub_add_right num.log2 1022 52
  rw [ofFraction, if_neg positive]
  simp only [floorLog2_one positive, scale, up, down, Nat.one_mul, Nat.pow_eq, intBits, intDigits]

theorem intDigits_le (num : Nat) : intDigits num ≤ 2 ^ 53 := by
  have less : num < 2 ^ (num.log2 + 1) := Nat.lt_log2_self
  unfold intDigits
  generalize num.log2 = e at less ⊢
  have rounded := roundDiv_le (num * 2 ^ (52 - e)) (2 ^ (e - 52))
  have digits : num * 2 ^ (52 - e) / 2 ^ (e - 52) < 2 ^ 53 := by
    apply Nat.div_lt_of_lt_mul
    have exponents : e + 1 + (52 - e) = e - 52 + 53 := by omega
    rw [← Nat.pow_add, ← exponents, Nat.pow_add]
    exact Nat.mul_lt_mul_of_pos_right less (Nat.two_pow_pos _)
  omega

theorem le_intDigits {num : Nat} (positive : num ≠ 0) (long : 52 ≤ num.log2) :
    2 ^ 52 ≤ intDigits num := by
  have power : 2 ^ num.log2 ≤ num := Nat.log2_self_le positive
  unfold intDigits
  generalize num.log2 = e at power long ⊢
  have rounded := div_le_roundDiv (num * 2 ^ (52 - e)) (2 ^ (e - 52))
  have digits : 2 ^ 52 ≤ num * 2 ^ (52 - e) / 2 ^ (e - 52) := by
    apply (Nat.le_div_iff_mul_le (Nat.two_pow_pos _)).mpr
    have exponents : 52 + (e - 52) = e := by omega
    have nothing : 52 - e = 0 := by omega
    rw [← Nat.pow_add, exponents, nothing, Nat.pow_zero, Nat.mul_one]
    exact power
  omega

/-- An exponent that no finite double has is reached by integers past the last power of two, and by
those that are rounded up to it. Half a unit in the last place of the greatest doubles is
`2 ^ half`. -/
theorem le_intBits_iff {num half : Nat} (positive : num ≠ 0) (value : half = 970) :
    2047 * 2 ^ 52 ≤ intBits num ↔ (2 ^ 54 - 1) * 2 ^ half ≤ num := by
  have power : 2 ^ num.log2 ≤ num := Nat.log2_self_le positive
  have less : num < 2 ^ (num.log2 + 1) := Nat.lt_log2_self
  unfold intBits
  by_cases low : num.log2 ≤ 1022
  · have digits := intDigits_le num
    have small : num < 2 ^ 53 * 2 ^ half := by
      calc num < 2 ^ (num.log2 + 1) := less
        _ ≤ 2 ^ (53 + half) := Nat.pow_le_pow_right Nat.two_pos (by omega)
        _ = 2 ^ 53 * 2 ^ half := pow_add 2 53 half
    omega
  · by_cases high : 1024 ≤ num.log2
    · have digits := le_intDigits positive (by omega)
      have large : 2 ^ 54 * 2 ^ half ≤ num := by
        calc 2 ^ 54 * 2 ^ half = 2 ^ (54 + half) := (pow_add 2 54 half).symm
          _ ≤ 2 ^ num.log2 := Nat.pow_le_pow_right Nat.two_pos (by omega)
          _ ≤ num := power
      omega
    · have last : num.log2 = 53 + half := by omega
      have up : 52 - (53 + half) = 0 := by omega
      have down : 53 + half - 52 = half + 1 := by omega
      have carries := even_le_roundDiv (2 ^ 52 - 1) num (Nat.two_pow_pos (half + 1))
      simp only [intDigits, last, up, down, pow_zero, Nat.mul_one, pow_succ'] at carries ⊢
      omega

/-- The least integer, its sign left out, whose nearest double is not finite: halfway between the
greatest finite double and `2 ^ 1024`. -/
def overflow : Nat := (2 ^ 54 - 1) * 2 ^ 970

/-- **Overflow.** An integer has a nearest finite double exactly below half a unit from
`2 ^ 1024`. -/
theorem ofInt?_eq_none_iff {n : Int} : ofInt? n = none ↔ overflow ≤ n.natAbs := by
  by_cases zero : n.natAbs = 0
  · have finite : ofInt? n = some (Double.zero (n < 0)) := by
      simp [ofInt?, ofFraction, zero, Double.zero]
    have positive : overflow ≠ 0 := by
      unfold overflow
      positivity
    simp [finite, zero, positive]
  · have reached : 2047 * 2 ^ 52 ≤ intBits n.natAbs ↔ overflow ≤ n.natAbs :=
      le_intBits_iff zero rfl
    have carried : intBits n.natAbs / Nat.pow 2 52 < 2047 ↔ ¬ 2047 * 2 ^ 52 ≤ intBits n.natAbs := by
      rw [Nat.div_lt_iff_lt_mul (by decide)]
      exact Nat.not_le.symm
    rw [← reached, ofInt?, ofFraction_one _ zero, ofBits]
    by_cases inside : intBits n.natAbs / Nat.pow 2 52 < 2047
    · rw [dif_pos inside]
      simpa using carried.mp inside
    · rw [dif_neg inside]
      simpa using Decidable.not_not.mp (mt carried.mpr inside)

end Recast.Double
