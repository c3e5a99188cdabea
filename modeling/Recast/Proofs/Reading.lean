import Recast.Proofs.Preservation
import Recast.Proofs.Stopping

/-!
What is read from a text. It is JSON, and its integers are no longer than the numerals that they
were read from, so they can be written again and named in messages.

* `isReadable_of_read`: both at once, by recursion along the reader;
* `isJson_of_read`, `isShort_of_read`: each by itself.
-/

namespace Recast

open Value Text

/-- Whether a reader can give a value, its members left out. -/
def Value.isReadable (v : Value) : Bool := v.isProper && v.isShort

/-- The numeral of what a run of digits is worth is no longer than the run. -/
theorem Text.Numeral.isWritable_of_read {digits : List Char} {n : Nat}
    (all : ∀ d ∈ digits, d.isDigit = true) (h : read digits = .ok n) : isWritable n = true := by
  unfold read at h
  split at h
  · rename_i short
    cases h
    exact isWritable_iff.mpr ((value_lt all).trans_le (Nat.pow_le_pow_right (by decide) short))
  · cases h

namespace Json

/-! ## Numbers and words -/

theorem isReadable_of_readNumber {start s rest : List Char} {negative : Bool} {v : Value}
    (h : readNumber start negative s = .ok (v, rest)) : v.all isReadable = true := by
  have digits := (isSpan_wholePart s).1
  simp only [readNumber] at h
  split at h
  · cases h
  · rename_i whole after _ found
    split at h
    · split at h
      · rename_i n worth
        cases h
        have short : Numeral.isWritable n = true :=
          Numeral.isWritable_of_read (by simpa [found] using digits) worth
        cases negative <;> simpa [Value.all, isReadable, isProper, isShort] using short
      · cases h
    · cases h
      rfl

theorem isReadable_of_readScalar {s rest : List Char} {v : Value}
    (h : readScalar s = .ok (v, rest)) : v.all isReadable = true := by
  unfold readScalar at h
  split at h <;> first | exact isReadable_of_readNumber h | (cases h; rfl)

/-! ## Values -/

mutual

theorem isReadable_of_readValue : (fuel : Nat) → ∀ {s rest : List Char} {v : Value},
    readValue fuel s = .ok (v, rest) → v.all isReadable = true
  | 0, _, _, _, h => by cases h
  | fuel + 1, s, rest, v, h => by
    unfold readValue at h
    split at h
    · obtain ⟨_, _, h⟩ := bind_eq_ok.mp h
      cases h
      rfl
    · split at h
      · cases h
        rfl
      · obtain ⟨⟨items, after⟩, made, h⟩ := bind_eq_ok.mp h
        cases h
        exact all_array_iff.mpr ⟨rfl, isReadable_of_readItems fuel made⟩
    · split at h
      · cases h
        rfl
      · obtain ⟨⟨fields, after⟩, made, h⟩ := bind_eq_ok.mp h
        cases h
        exact all_setAll (fun _ => Bool.and_true _) rfl (isReadable_of_readFields fuel made)
    · exact isReadable_of_readScalar h

theorem isReadable_of_readItems : (fuel : Nat) → ∀ {s rest : List Char} {items : List Value},
    readItems fuel s = .ok (items, rest) → ∀ v ∈ items, v.all isReadable = true
  | 0, _, _, _, h => by cases h
  | fuel + 1, s, rest, items, h => by
    unfold readItems at h
    obtain ⟨⟨first, after⟩, made, h⟩ := bind_eq_ok.mp h
    have readable := isReadable_of_readValue fuel made
    dsimp only at h
    split at h
    · cases h
      simpa using readable
    · obtain ⟨⟨others, after'⟩, more, h⟩ := bind_eq_ok.mp h
      cases h
      exact List.forall_mem_cons.mpr ⟨readable, isReadable_of_readItems fuel more⟩
    · cases h

theorem isReadable_of_readFields : (fuel : Nat) → ∀ {s rest : List Char} {fields : Fields},
    readFields fuel s = .ok (fields, rest) → ∀ f ∈ fields, f.2.all isReadable = true
  | 0, _, _, _, h => by cases h
  | fuel + 1, s, rest, fields, h => by
    unfold readFields at h
    split at h
    · obtain ⟨⟨name, after⟩, _, h⟩ := bind_eq_ok.mp h
      dsimp only at h
      split at h
      · obtain ⟨⟨first, after'⟩, made, h⟩ := bind_eq_ok.mp h
        have readable := isReadable_of_readValue fuel made
        dsimp only at h
        split at h
        · cases h
          simpa using readable
        · obtain ⟨⟨others, after''⟩, more, h⟩ := bind_eq_ok.mp h
          cases h
          exact List.forall_mem_cons.mpr ⟨readable, isReadable_of_readFields fuel more⟩
        · cases h
      · cases h
    · cases h

end

/-! ## Texts -/

/-- **What is read from a text** is JSON, and its integers are short. -/
theorem isReadable_of_read {text : String} {v : Value} (h : read text = .ok v) :
    v.all isReadable = true := by
  simp only [read] at h
  split at h
  · rename_i value whole
    cases h
    unfold readWhole at whole
    split at whole
    · cases whole
    · obtain ⟨⟨value, rest⟩, made, h⟩ := bind_eq_ok.mp whole
      dsimp only at h
      split at h <;> cases h
      exact isReadable_of_readValue _ made
  · cases h
  · cases h

theorem isJson_of_read {text : String} {v : Value} (h : read text = .ok v) : v.isJson = true :=
  all_imp (fun _ both => (Bool.and_eq_true_iff.mp both).1) (isReadable_of_read h)

theorem isShort_of_read {text : String} {v : Value} (h : read text = .ok v) :
    v.all isShort = true :=
  all_imp (fun _ both => (Bool.and_eq_true_iff.mp both).2) (isReadable_of_read h)

theorem isJson_of_parse {input v : Value} (h : parse input = .ok v) : v.isJson = true := by
  obtain ⟨report, _, h⟩ := bind_eq_ok.mp h
  split at h
  · exact isJson_of_read (mapError_eq_ok.mp h)
  · cases h

end Json

end Recast
