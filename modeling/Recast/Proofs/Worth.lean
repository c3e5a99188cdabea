import Mathlib.Algebra.Group.Nat.Defs
import Recast.Double.Basic

/-!
What finite doubles are worth, in units of the least positive one. Main statements: a double equals
an integer exactly when that is its integer (`eqInt_iff`), and two doubles are numerically equal
exactly when they have the same integer or are the same double (`numEq_iff_toInt?`).
-/

namespace Recast.Double

/-- The worth of a finite double, its sign left out, in units of `2 ^ -1074`. -/
def magnitude (exponent : Fin 2047) (fraction : Fraction) : Nat :=
  significand exponent fraction * 2 ^ scale exponent

theorem fraction_lt (f : Fraction) : f.val < 2 ^ 52 := f.isLt

theorem significand_eq (e : Fin 2047) (f : Fraction) :
    significand e f = if e.val = 0 then f.val else 2 ^ 52 + f.val := rfl

theorem significand_lt (e : Fin 2047) (f : Fraction) : significand e f < 2 ^ 53 := by
  have hf := fraction_lt f
  rw [significand_eq]
  split <;> omega

theorem significand_ge {e : Fin 2047} (f : Fraction) (he : e.val ≠ 0) :
    2 ^ 52 ≤ significand e f := by
  rw [significand_eq, if_neg he]
  omega

theorem scale_le_of_magnitude {e e' : Fin 2047} {f f' : Fraction}
    (h : magnitude e f = magnitude e' f') : scale e' ≤ scale e := by
  apply Nat.le_of_not_lt
  intro less
  have normal : e'.val ≠ 0 := by
    unfold scale at less
    omega
  have large := significand_ge f' normal
  have small := significand_lt e f
  have : magnitude e f < magnitude e' f' := by
    calc significand e f * 2 ^ scale e
        < 2 ^ 53 * 2 ^ scale e := Nat.mul_lt_mul_of_pos_right small (Nat.two_pow_pos _)
      _ = 2 ^ 52 * 2 ^ (scale e + 1) := by rw [Nat.pow_succ 2 (scale e)]; omega
      _ ≤ significand e' f' * 2 ^ scale e' :=
        Nat.mul_le_mul large (Nat.pow_le_pow_right Nat.two_pos less)
  omega

/-- The binary form of a worth is unique: an exponent field above zero has a full significand. -/
theorem magnitude_inj {e e' : Fin 2047} {f f' : Fraction}
    (h : magnitude e f = magnitude e' f') : e = e' ∧ f = f' := by
  have scales : scale e = scale e' :=
    Nat.le_antisymm (scale_le_of_magnitude h.symm) (scale_le_of_magnitude h)
  have significands : significand e f = significand e' f' := by
    unfold magnitude at h
    rw [scales] at h
    exact Nat.eq_of_mul_eq_mul_right (Nat.two_pow_pos _) h
  have hf := fraction_lt f
  have hf' := fraction_lt f'
  have fields : e.val = e'.val ∧ f.val = f'.val := by
    rw [significand_eq, significand_eq] at significands
    unfold scale at scales
    split at significands <;> split at significands <;> omega
  exact ⟨Fin.ext fields.1, Fin.ext fields.2⟩

/-- The worth of a double in units of `2 ^ -1074`; the doubles that are no numbers count as zero. -/
def worth : Double → Int
  | .finite negative exponent fraction =>
    if negative then -(magnitude exponent fraction : Int) else magnitude exponent fraction
  | _ => 0

theorem magnitude_zero_iff {e : Fin 2047} {f : Fraction} :
    magnitude e f = 0 ↔ e.val = 0 ∧ f.val = 0 := by
  have significands : significand e f = 0 ↔ e.val = 0 ∧ f.val = 0 := by
    rw [significand_eq]
    split <;> omega
  rw [magnitude, Nat.mul_eq_zero, significands]
  simp

theorem same_of_worth {a b : Double} (ha : a.isFinite = true) (hb : b.isFinite = true)
    (h : a.worth = b.worth) : a = b ∨ a.isZero = true ∧ b.isZero = true := by
  cases a with
  | finite s e f =>
    cases b with
    | finite t e' f' =>
      simp only [worth] at h
      by_cases signs : s = t
      · subst signs
        have same : magnitude e f = magnitude e' f' := by cases s <;> simp at h <;> omega
        obtain ⟨rfl, rfl⟩ := magnitude_inj same
        exact Or.inl rfl
      · have zeros : magnitude e f = 0 ∧ magnitude e' f' = 0 := by
          cases s <;> cases t <;> simp at h signs <;> omega
        refine Or.inr ⟨?_, ?_⟩
        · simpa [isZero] using magnitude_zero_iff.mp zeros.1
        · simpa [isZero] using magnitude_zero_iff.mp zeros.2
    | _ => cases hb
  | _ => cases ha

/-- How many of the units make one. -/
def unit : Nat := 2 ^ 1074

theorem mul_two_pow_sub (m s k : Nat) : m * 2 ^ (s - k) * 2 ^ k = m * 2 ^ s * 2 ^ (k - s) := by
  have exponents : s - k + k = s + (k - s) := by omega
  rw [Nat.mul_assoc, Nat.mul_assoc, ← Nat.pow_add, ← Nat.pow_add, exponents]

theorem magnitude_mul_denominator (e : Fin 2047) (f : Fraction) :
    significand e f * 2 ^ (scale e - 1074) * unit = magnitude e f * 2 ^ (1074 - scale e) := by
  rw [unit, mul_two_pow_sub (significand e f) (scale e) 1074, magnitude]

/-- The fraction that a finite double is has the double's worth. -/
theorem worth_mul_denominator (d : Double) :
    d.numerator * (unit : Int) = d.worth * (d.denominator : Int) := by
  cases d with
  | finite s e f =>
    have lifted := congrArg (Nat.cast (R := Int)) (magnitude_mul_denominator e f)
    rw [Int.natCast_mul, Int.natCast_mul] at lifted
    cases s with
    | false =>
      simp only [numerator, worth, denominator, Bool.false_eq_true, if_false]
      exact lifted
    | true =>
      simp only [numerator, worth, denominator, if_true, Int.neg_mul]
      exact congrArg _ lifted
  | _ => simp only [numerator, worth, Int.zero_mul]

theorem eqInt_iff {n : Int} {d : Double} : eqInt n d = true ↔ d.toInt? = some n := by
  have positive : (d.denominator : Int) ≠ 0 := by
    have := denominator_pos d
    omega
  constructor
  · intro h
    simp only [eqInt, Bool.and_eq_true, beq_iff_eq] at h
    have integral : d.isIntegral = true := by
      simp [isIntegral, h.1, ← h.2]
    simp only [toInt?, integral, if_true, ← h.2, Option.some.injEq]
    exact Int.mul_ediv_cancel n positive
  · intro h
    have integral : d.isIntegral = true := by
      unfold toInt? at h
      split at h
      · assumption
      · cases h
    simp only [isIntegral, Bool.and_eq_true] at integral
    simp [eqInt, integral.1, toInt?_mul_denominator d n h]

theorem isFinite_of_toInt? {d : Double} {n : Int} (h : d.toInt? = some n) : d.isFinite = true := by
  have := eqInt_iff.mpr h
  simp only [eqInt, Bool.and_eq_true] at this
  exact this.1

theorem worth_of_toInt? {d : Double} {n : Int} (h : d.toInt? = some n) :
    d.worth = n * (unit : Int) := by
  have positive : (d.denominator : Int) ≠ 0 := by
    have := denominator_pos d
    omega
  apply Int.eq_of_mul_eq_mul_right positive
  rw [← worth_mul_denominator, ← toInt?_mul_denominator d n h, Int.mul_assoc, Int.mul_assoc,
    Int.mul_comm (d.denominator : Int)]

theorem toInt?_of_isZero {d : Double} (h : d.isZero = true) : d.toInt? = some 0 := by
  cases d with
  | finite s e f =>
    simp only [isZero, Bool.and_eq_true, decide_eq_true_eq] at h
    apply eqInt_iff.mp
    simp [eqInt, isFinite, numerator, significand, h.1, h.2]
  | _ => cases h

theorem numEq_iff {a b : Double} (ha : a ≠ .nan) :
    numEq a b = true ↔ a = b ∨ a.isZero = true ∧ b.isZero = true := by
  cases a with
  | nan => exact absurd rfl ha
  | _ => simp [numEq]

/-- Doubles are numerically equal exactly when their integers are the same or, where they have none,
they are the same double. -/
theorem numEq_iff_toInt? {a b : Double} (ha : a ≠ .nan) :
    numEq a b = true ↔ (∃ n, a.toInt? = some n ∧ b.toInt? = some n) ∨ a.toInt? = none ∧ a = b := by
  rw [numEq_iff ha]
  constructor
  · rintro (rfl | ⟨za, zb⟩)
    · cases h : a.toInt? with
      | some n => exact Or.inl ⟨n, rfl, rfl⟩
      | none => exact Or.inr ⟨rfl, rfl⟩
    · exact Or.inl ⟨0, toInt?_of_isZero za, toInt?_of_isZero zb⟩
  · rintro (⟨n, hn, hm⟩ | ⟨_, same⟩)
    · apply same_of_worth (isFinite_of_toInt? hn) (isFinite_of_toInt? hm)
      rw [worth_of_toInt? hn, worth_of_toInt? hm]
    · exact Or.inl same

end Recast.Double
