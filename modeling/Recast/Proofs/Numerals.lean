import Mathlib.Data.List.Induction
import Mathlib.Data.Nat.Digits.Defs
import Recast.Text.Numeral

/-!
Numerals as they are written. The digits of a number are worth the number (`value_write`), zero
stands in front of no others (`write_head`), and the numbers that are short enough to be written are
those below a power of ten (`isWritable_iff`). Four hexadecimal digits give a small number back
(`hexValue?_hexDigit`).
-/

namespace Recast.Text.Numeral

theorem value_write (n : Nat) : value (write n) = n :=
  Nat.ofDigitChars_eq_foldl.symm.trans Nat.ofDigitChars_ten_toDigits

theorem isDigit_of_mem_write {n : Nat} {c : Char} (mem : c ∈ write n) : c.isDigit = true :=
  Nat.isDigit_of_mem_toDigits (by decide) (by decide) mem

theorem write_zero : write 0 = ['0'] := Nat.toDigits_zero 10

/-- The numeral of a positive number does not start with a zero. -/
theorem write_head {n : Nat} (positive : 0 < n) : ∃ d ds, write n = d :: ds ∧ d ≠ '0' := by
  induction n using Nat.strongRecOn with
  | ind n ih =>
    by_cases small : n < 10
    · refine ⟨n.digitChar, [], Nat.toDigits_of_lt_base small, ?_⟩
      rw [ne_eq, Nat.digitChar_eq_zero]
      omega
    · have large : 10 ≤ n := by omega
      obtain ⟨d, ds, split, first⟩ := ih (n / 10) (by omega) (by omega)
      have step : write n = write (n / 10) ++ [(n % 10).digitChar] :=
        Nat.toDigits_of_base_le (by decide) large
      refine ⟨d, ds ++ [(n % 10).digitChar], ?_, first⟩
      rw [step, split, List.cons_append]

theorem exists_write (n : Nat) : ∃ d ds, write n = d :: ds ∧ d.isDigit = true := by
  cases split : write n with
  | nil => exact absurd split Nat.toDigits_ne_nil
  | cons d ds => exact ⟨d, ds, rfl, isDigit_of_mem_write (by rw [split]; exact List.mem_cons_self)⟩

theorem value_lt {digits : List Char} (all : ∀ c ∈ digits, c.isDigit = true) :
    value digits < 10 ^ digits.length := by
  induction digits using List.reverseRecOn with
  | nil => decide
  | append_singleton digits d ih =>
    obtain ⟨before, last⟩ := List.forall_mem_append.mp all
    have smaller := ih before
    have digit : d.toNat - '0'.toNat < 10 := by
      have bounds := last d (by simp)
      simp only [Char.isDigit, Bool.and_eq_true, decide_eq_true_eq, ge_iff_le] at bounds
      have upper : d.toNat ≤ 57 := bounds.2
      have zero : '0'.toNat = 48 := rfl
      omega
    have worth : value (digits ++ [d]) =
        10 * value digits + (d.toNat - '0'.toNat) := by
      simp [value]
    rw [worth, List.length_append, List.length_singleton, Nat.pow_succ]
    omega

/-- The numbers that are written are those below a power of ten. -/
theorem isWritable_iff {n : Nat} : isWritable n = true ↔ n < 10 ^ limit := by
  rw [isWritable, decide_eq_true_eq]
  constructor
  · intro short
    have small := value_lt fun c mem => isDigit_of_mem_write (n := n) (c := c) mem
    rw [value_write] at small
    exact small.trans_le (Nat.pow_le_pow_right (by decide) short)
  · exact Nat.toDigits_length 10 n limit (by decide)

theorem isWritable_limit : isWritable (10 ^ limit) = false := by
  rw [← Bool.not_eq_true, isWritable_iff]
  exact Nat.lt_irrefl _

theorem hexValue?_hexDigit (n : Nat) : hexValue? (hexDigit n) = some (n % 16) := by
  have low : ∀ d < 16, hexValue? (hexDigit d) = some d := by decide
  have digit : hexDigit n = hexDigit (n % 16) := by simp [hexDigit]
  rw [digit]
  exact low (n % 16) (Nat.mod_lt n (by decide))

end Recast.Text.Numeral
