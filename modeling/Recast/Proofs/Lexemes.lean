import Recast.Json.Printer
import Recast.Json.Reader
import Recast.Proofs.Numerals

/-!
Texts and integers as JSON text. What is written for one is read back, whatever follows it in the
text: a text ends at its quote (`readText_writeText`), and an integer ends where no character
follows that could go on with a numeral (`readScalar_writeInt`).
-/

namespace Recast.Json

open Text

/-! ## Texts -/

/-- Four hexadecimal digits make the number that they were written for. -/
theorem unit?_hex {n : Nat} (small : n < 0x10000) :
    ∃ a b c d, Numeral.hex 4 n = [a, b, c, d] ∧ unit? a b c d = some n := by
  refine ⟨_, _, _, _, rfl, ?_⟩
  have whole : ((n / 16 / 16 / 16 % 16 * 16 + n / 16 / 16 % 16) * 16 + n / 16 % 16) * 16 + n % 16 =
      n := by omega
  simp only [unit?, Numeral.hexValue?_hexDigit, Option.bind_eq_bind, Option.bind_some,
    Option.pure_def, whole]

theorem charOf_toNat {c : Char} (control : c.toNat < 0x20) : charOf c.toNat = c := by
  have high : isHighSurrogate c.toNat = false := by
    simp only [isHighSurrogate, Bool.and_eq_false_iff, decide_eq_false_iff_not]
    omega
  have low : isLowSurrogate c.toNat = false := by
    simp only [isLowSurrogate, Bool.and_eq_false_iff, decide_eq_false_iff_not]
    omega
  simp [charOf, high, low]

/-- A control character that is written by its number is read back, where more text follows. -/
theorem readNumbered_hex {c next : Char} (control : c.toNat < 0x20) (rest : List Char) :
    readNumbered (Numeral.hex 4 c.toNat ++ next :: rest) = .ok (c, 5) := by
  obtain ⟨x, y, z, w, written, number⟩ := unit?_hex (n := c.toNat) (by omega)
  have high : isHighSurrogate c.toNat = false := by
    simp only [isHighSurrogate, Bool.and_eq_false_iff, decide_eq_false_iff_not]
    omega
  simp only [written, List.cons_append, List.nil_append, readNumbered, number, high,
    charOf_toNat control]

section
variable (start before : List Char)

/-- How a character that is written by an escape is read: the reader passes the whole escape. -/
theorem readText_of_readEscape {c : Char} {rest : List Char} (code : List Char)
    (read : readEscape start (code ++ rest) = .ok (c, code.length)) :
    readText start 0 before ('\\' :: (code ++ rest)) = readText start 0 (c :: before) rest := by
  have skipped : ∀ (code before : List Char),
      readText start code.length before (code ++ rest) = readText start 0 before rest := by
    intro code
    induction code with
    | nil => exact fun before => rfl
    | cons d code ih => exact fun before => ih before
  rw [readText, if_neg (by decide), if_pos rfl, read]
  exact skipped code (c :: before)

/-- A character that is written is read back. -/
theorem readText_escape (c next : Char) (rest : List Char) :
    readText start 0 before (escape c ++ next :: rest) =
      readText start 0 (c :: before) (next :: rest) := by
  have short : ∀ e, unescape? e = some c → e ≠ 'u' →
      readText start 0 before (['\\', e] ++ next :: rest) =
        readText start 0 (c :: before) (next :: rest) := by
    intro e unescaped other
    have read : readEscape start (e :: next :: rest) = .ok (c, 1) := by
      unfold readEscape
      split
      · rename_i none
        cases none
      · rename_i number
        exact absurd (List.cons.inj number).1 other
      · rename_i same
        cases same
        rw [unescaped]
    exact readText_of_readEscape start before [e] read
  unfold escape
  split
  · rename_i quote
    exact short '"' (by rw [quote]; rfl) (by decide)
  split
  · rename_i backslash
    exact short '\\' (by rw [backslash]; rfl) (by decide)
  split
  · rename_i lineFeed
    exact short 'n' (by rw [lineFeed]; rfl) (by decide)
  split
  · rename_i carriageReturn
    exact short 'r' (by rw [carriageReturn]; rfl) (by decide)
  split
  · rename_i tab
    exact short 't' (by rw [tab]; rfl) (by decide)
  split
  · rename_i formFeed
    exact short 'f' (by rw [formFeed]; rfl) (by decide)
  split
  · rename_i backspace
    exact short 'b' (by rw [backspace]; rfl) (by decide)
  split
  · rename_i control
    refine readText_of_readEscape start before ('u' :: Numeral.hex 4 c.toNat) ?_
    rw [List.cons_append, readEscape, readNumbered_hex control, List.length_cons,
      Numeral.length_hex]
  · rename_i quote backslash _ _ _ _ _ control
    rw [List.singleton_append, readText, if_neg quote, if_neg backslash, if_neg control]

/-- **Texts.** The characters that are written for a text are read back, up to the quote that ends
it. -/
theorem readText_writeText (cs rest : List Char) :
    readText start 0 before (cs.flatMap escape ++ '"' :: rest) =
      .ok (String.ofList (before.reverse ++ cs), rest) := by
  induction cs generalizing before with
  | nil => simp [readText]
  | cons c cs ih =>
    have more : ∃ next after, cs.flatMap escape ++ '"' :: rest = next :: after :=
      List.exists_cons_of_ne_nil (by simp)
    obtain ⟨next, after, split⟩ := more
    rw [List.flatMap_cons, List.append_assoc, split, readText_escape, ← split, ih]
    simp

end

/-! ## Integers -/

/-- A text does not go on with a numeral: what is in front, if anything, is no digit, no point and
no mark of an exponent. -/
def EndsNumeral : List Char → Prop
  | [] => True
  | c :: _ => c.isDigit = false ∧ c ≠ '.' ∧ c ≠ 'e' ∧ c ≠ 'E'

section
variable {rest : List Char} (ends : EndsNumeral rest)

include ends

theorem spanDigits_append {digits : List Char} (all : ∀ d ∈ digits, d.isDigit = true) :
    spanDigits (digits ++ rest) = (digits, rest) := by
  rw [spanDigits, List.takeWhile_append_of_pos all, List.dropWhile_append_of_pos all]
  cases rest with
  | nil => simp
  | cons c rest => simp [ends.1]

theorem wholePart_write (n : Nat) :
    wholePart (Numeral.write n ++ rest) = (Numeral.write n, rest) := by
  by_cases positive : 0 < n
  · obtain ⟨d, ds, written, first⟩ := Numeral.write_head positive
    have spanned : spanDigits (Numeral.write n ++ rest) = (Numeral.write n, rest) :=
      spanDigits_append ends fun d mem => Numeral.isDigit_of_mem_write mem
    rw [written, List.cons_append] at spanned ⊢
    unfold wholePart
    split
    · rename_i zero
      exact absurd (List.cons.inj zero).1 first
    · exact spanned
  · obtain rfl : n = 0 := by omega
    simp [Numeral.write_zero, wholePart]

theorem fractionPart_of_ends : fractionPart rest = ([], rest) := by
  cases rest with
  | nil => rfl
  | cons c rest =>
    unfold fractionPart
    split
    · rename_i point
      exact absurd (List.cons.inj point).1 ends.2.1
    · rfl

theorem exponentPart_of_ends : exponentPart rest = (none, rest) := by
  cases rest with
  | nil => rfl
  | cons c rest => simp [exponentPart, ends.2.2.1, ends.2.2.2]

theorem readNumber_write {n : Nat} (writable : Numeral.isWritable n = true) (start : List Char)
    (negative : Bool) : readNumber start negative (Numeral.write n ++ rest) =
      .ok (.int (if negative then -(n : Int) else n), rest) := by
  have short : (Numeral.write n).length ≤ Numeral.limit := by
    simpa [Numeral.isWritable] using writable
  have read : Numeral.read (Numeral.write n) = .ok n := by
    rw [Numeral.read, if_pos short, Numeral.value_write]
  obtain ⟨d, ds, written, _⟩ := Numeral.exists_write n
  unfold readNumber
  rw [wholePart_write ends]
  rw [written] at read ⊢
  simp [fractionPart_of_ends ends, exponentPart_of_ends ends, read]

end

theorem readScalar_digit {d : Char} (digit : d.isDigit = true) (s : List Char) :
    readScalar (d :: s) = readNumber (d :: s) false (d :: s) := by
  have other : ∀ c : Char, c.isDigit = false → d ≠ c := by
    rintro c no rfl
    rw [digit] at no
    cases no
  unfold readScalar
  split <;> rename_i same
  · exact absurd (List.cons.inj same).1 (other 'n' (by decide))
  · exact absurd (List.cons.inj same).1 (other 't' (by decide))
  · exact absurd (List.cons.inj same).1 (other 'f' (by decide))
  · exact absurd (List.cons.inj same).1 (other 'N' (by decide))
  · exact absurd (List.cons.inj same).1 (other 'I' (by decide))
  · exact absurd (List.cons.inj same).1 (other '-' (by decide))
  · exact absurd (List.cons.inj same).1 (other '-' (by decide))
  · rfl

theorem readScalar_minus {d : Char} (digit : d.isDigit = true) (s : List Char) :
    readScalar ('-' :: d :: s) = readNumber ('-' :: d :: s) true (d :: s) := by
  have other : d ≠ 'I' := by
    rintro rfl
    revert digit
    decide
  unfold readScalar
  split <;> rename_i same
  iterate 5 cases (List.cons.inj same).1
  · exact absurd (List.cons.inj (List.cons.inj same).2).1 other
  · rw [(List.cons.inj same).2]
  · exact absurd rfl (same _)

/-- **Integers.** The numeral that is written for an integer is read back. -/
theorem readScalar_writeInt {n : Int} (writable : Numeral.isWritable n.natAbs = true)
    {rest : List Char} (ends : EndsNumeral rest) :
    readScalar (Numeral.writeInt n ++ rest) = .ok (.int n, rest) := by
  obtain ⟨d, ds, written, digit⟩ := Numeral.exists_write n.natAbs
  have read := readNumber_write ends writable
  rw [written] at read
  unfold Numeral.writeInt
  by_cases negative : n < 0
  · rw [if_pos negative, written, List.cons_append, List.cons_append, readScalar_minus digit,
      ← List.cons_append, read]
    have back : -(n.natAbs : Int) = n := by omega
    rw [if_pos rfl, back]
  · rw [if_neg negative, written, List.cons_append, readScalar_digit digit, ← List.cons_append,
      read]
    have back : (n.natAbs : Int) = n := by omega
    rw [if_neg Bool.false_ne_true, back]

end Recast.Json
