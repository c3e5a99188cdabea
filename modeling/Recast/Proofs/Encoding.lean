import Mathlib.Data.List.Basic
import Recast.Failure
import Recast.Text.Utf8

/-!
Bytes that are text. The decoder is compared with the encoding of characters, worked out in numbers
(`units`): it reads what is encoded (`decodeFrom_units`), and whatever it reads is the encoding of
what it finds (`units_of_decodeFrom`). So it accepts exactly the bytes that encode a text
(`decode_eq_ok_iff`).
-/

namespace Recast.Text.Utf8

/-- The bytes that encode a text. -/
def encode (text : String) : List UInt8 := text.toList.flatMap String.utf8EncodeChar

/-! ## Encoded characters -/

/-- The bytes that encode a character, as numbers. -/
def units (n : Nat) : List Nat :=
  if n ≤ 0x7F then [n]
  else if n ≤ 0x7FF then [n / 64 + 0xC0, n % 64 + 0x80]
  else if n ≤ 0xFFFF then [n / 4096 + 0xE0, n / 64 % 64 + 0x80, n % 64 + 0x80]
  else [n / 262144 + 0xF0, n / 4096 % 64 + 0x80, n / 64 % 64 + 0x80, n % 64 + 0x80]

theorem units_length_pos (n : Nat) : 0 < (units n).length := by
  unfold units
  split
  · exact Nat.one_pos
  · split
    · exact Nat.succ_pos 1
    · split <;> exact Nat.succ_pos _

theorem valid_toNat (c : Char) : c.toNat.isValidChar := c.valid

theorem toNat_ofNat_of_valid {n : Nat} (valid : n.isValidChar) : (Char.ofNat n).toNat = n := by
  unfold Char.ofNat
  rw [dif_pos valid]
  rfl

theorem map_utf8EncodeChar (c : Char) :
    (String.utf8EncodeChar c).map UInt8.toNat = units c.toNat := by
  have valid := valid_toNat c
  have byte : ∀ {n : Nat}, n < 256 → (UInt8.ofNat n).toNat = n := UInt8.toNat_ofNat_of_lt'
  have bound : c.toNat < 0x110000 := by omega
  change (String.utf8EncodeChar c).map UInt8.toNat = units c.val.toNat
  change c.val.toNat < 0x110000 at bound
  rw [String.utf8EncodeChar.eq_1, units]
  generalize c.val.toNat = n at bound
  by_cases one : n ≤ 0x7F
  · rw [if_pos one, if_pos one, List.map_singleton, byte (by omega)]
  by_cases two : n ≤ 0x7FF
  · rw [if_neg one, if_pos two, if_neg one, if_pos two]
    simp only [List.map_cons, List.map_nil]
    rw [byte (by omega), byte (by omega)]
    congr 2
    omega
  by_cases three : n ≤ 0xFFFF
  · rw [if_neg one, if_neg two, if_pos three, if_neg one, if_neg two, if_pos three]
    simp only [List.map_cons, List.map_nil]
    rw [byte (by omega), byte (by omega), byte (by omega)]
    congr 2
    omega
  · rw [if_neg one, if_neg two, if_neg three, if_neg one, if_neg two, if_neg three]
    simp only [List.map_cons, List.map_nil]
    rw [byte (by omega), byte (by omega), byte (by omega), byte (by omega)]
    congr 2
    omega

/-! ## First bytes -/

section
variable {b : Nat}

theorem opening_one (high : b < 0x80) : opening b = .whole := if_pos high

theorem opening_two (low : 0xC2 ≤ b) (high : b < 0xE0) :
    opening b = .more 1 0x80 0xBF (b - 0xC0) := by
  rw [opening, if_neg (by omega), if_neg (by omega), if_pos high]

theorem opening_three (low : 0xE0 ≤ b) (high : b < 0xF0) :
    opening b = .more 2 (if b = 0xE0 then 0xA0 else 0x80) (if b = 0xED then 0x9F else 0xBF)
      (b - 0xE0) := by
  rw [opening, if_neg (by omega), if_neg (by omega), if_neg (by omega)]
  split
  · rename_i first
    subst first
    rfl
  · split
    · rename_i first
      subst first
      rfl
    · rfl

theorem opening_four (low : 0xF0 ≤ b) (high : b ≤ 0xF4) :
    opening b = .more 3 (if b = 0xF0 then 0x90 else 0x80) (if b = 0xF4 then 0x8F else 0xBF)
      (b - 0xF0) := by
  rw [opening, if_neg (by omega), if_neg (by omega), if_neg (by omega), if_neg (by omega),
    if_neg (by omega), if_neg (by omega)]
  split
  · rename_i first
    subst first
    rfl
  · split
    · rw [if_neg (by omega)]
    · rename_i last
      obtain rfl : b = 0xF4 := by omega
      rfl

theorem opening_other (other : (0x80 ≤ b ∧ b < 0xC2) ∨ 0xF4 < b) : opening b = .none := by
  rcases other with ⟨low, high⟩ | low
  · rw [opening, if_neg (by omega), if_pos high]
  · rw [opening, if_neg (by omega), if_neg (by omega), if_neg (by omega), if_neg (by omega),
      if_neg (by omega), if_neg (by omega), if_neg (by omega), if_neg (by omega),
      if_neg (by omega)]

end

/-! ## Further bytes -/

section
variable {position lead start seen owed low high code b : Nat} {rest : List Nat}

theorem decodeFrom_last (range : low ≤ b ∧ b ≤ high) :
    decodeFrom position (some ⟨lead, start, seen, 1, low, high, code⟩) (b :: rest) =
      (Char.ofNat (code * 64 + (b - 0x80)) :: ·) <$> decodeFrom (position + 1) none rest := by
  rw [decodeFrom]
  exact if_pos range

theorem decodeFrom_next (range : low ≤ b ∧ b ≤ high) :
    decodeFrom position (some ⟨lead, start, seen, owed + 2, low, high, code⟩) (b :: rest) =
      decodeFrom (position + 1)
        (some ⟨lead, start, seen + 1, owed + 1, 0x80, 0xBF, code * 64 + (b - 0x80)⟩) rest := by
  rw [decodeFrom]
  dsimp only
  rw [if_pos range, if_neg (by omega)]
  rfl

theorem exists_of_decodeFrom {bytes : List Nat} {cs : List Char}
    (h : decodeFrom position (some ⟨lead, start, seen, owed, low, high, code⟩) bytes = .ok cs) :
    ∃ b rest, bytes = b :: rest ∧ low ≤ b ∧ b ≤ high := by
  cases bytes with
  | nil => cases h
  | cons b rest =>
    rw [decodeFrom] at h
    split at h
    · rename_i range
      exact ⟨b, rest, rfl, range⟩
    · cases h

end

/-! ## Characters -/

/-- **What encodes a character is read as it.** -/
theorem decodeFrom_units (c : Char) (position : Nat) (rest : List Nat) :
    ∃ next, decodeFrom position none (units c.toNat ++ rest) =
      (c :: ·) <$> decodeFrom next none rest := by
  have valid := valid_toNat c
  have found : Char.ofNat c.toNat = c := Char.ofNat_toNat c
  generalize c.toNat = n at valid found
  subst found
  unfold units
  split
  · rename_i one
    refine ⟨position + 1, ?_⟩
    rw [List.singleton_append, decodeFrom, opening_one (by omega)]
  split
  · rename_i one two
    refine ⟨position + 1 + 1, ?_⟩
    simp only [List.cons_append, List.nil_append]
    rw [decodeFrom, opening_two (by omega) (by omega)]
    dsimp only
    rw [decodeFrom_last (by omega)]
    have whole : (n / 64 + 0xC0 - 0xC0) * 64 + (n % 64 + 0x80 - 0x80) = n := by omega
    rw [whole]
  split
  · rename_i one two three
    refine ⟨position + 1 + 1 + 1, ?_⟩
    simp only [List.cons_append, List.nil_append]
    rw [decodeFrom, opening_three (by omega) (by omega)]
    dsimp only
    have second : (if n / 4096 + 0xE0 = 0xE0 then 0xA0 else 0x80) ≤ n / 64 % 64 + 0x80 ∧
        n / 64 % 64 + 0x80 ≤ (if n / 4096 + 0xE0 = 0xED then 0x9F else 0xBF) := by
      constructor <;> split <;> omega
    rw [decodeFrom_next second, decodeFrom_last (by omega)]
    have whole : ((n / 4096 + 0xE0 - 0xE0) * 64 + (n / 64 % 64 + 0x80 - 0x80)) * 64 +
        (n % 64 + 0x80 - 0x80) = n := by omega
    rw [whole]
  · rename_i one two three
    refine ⟨position + 1 + 1 + 1 + 1, ?_⟩
    simp only [List.cons_append, List.nil_append]
    rw [decodeFrom, opening_four (by omega) (by omega)]
    dsimp only
    have second : (if n / 262144 + 0xF0 = 0xF0 then 0x90 else 0x80) ≤ n / 4096 % 64 + 0x80 ∧
        n / 4096 % 64 + 0x80 ≤ (if n / 262144 + 0xF0 = 0xF4 then 0x8F else 0xBF) := by
      constructor <;> split <;> omega
    rw [decodeFrom_next second, decodeFrom_next (by omega), decodeFrom_last (by omega)]
    have whole : (((n / 262144 + 0xF0 - 0xF0) * 64 + (n / 4096 % 64 + 0x80 - 0x80)) * 64 +
        (n / 64 % 64 + 0x80 - 0x80)) * 64 + (n % 64 + 0x80 - 0x80) = n := by omega
    rw [whole]

/-- **What is read as a character encodes it.** -/
theorem units_of_decodeFrom {position b : Nat} {bytes : List Nat} {cs : List Char}
    (h : decodeFrom position none (b :: bytes) = .ok cs) :
    ∃ c cs' rest next, cs = c :: cs' ∧ b :: bytes = units c.toNat ++ rest ∧
      decodeFrom next none rest = .ok cs' := by
  have found : ∀ {n next : Nat} {rest : List Nat}, n.isValidChar → b :: bytes = units n ++ rest →
      (Char.ofNat n :: ·) <$> decodeFrom next none rest = .ok cs →
      ∃ c cs' rest next, cs = c :: cs' ∧ b :: bytes = units c.toNat ++ rest ∧
        decodeFrom next none rest = .ok cs' := by
    intro n next rest valid split h
    obtain ⟨cs', more, rfl⟩ := map_eq_ok.mp h
    exact ⟨Char.ofNat n, cs', rest, next, rfl, by rw [toNat_ofNat_of_valid valid, split], more⟩
  rw [decodeFrom] at h
  by_cases one : b < 0x80
  · rw [opening_one one] at h
    exact found (by omega) (by rw [units, if_pos (by omega)]; rfl) h
  by_cases two : 0xC2 ≤ b ∧ b < 0xE0
  · rw [opening_two two.1 two.2] at h
    dsimp only at h
    obtain ⟨b₁, rest, rfl, low, high⟩ := exists_of_decodeFrom h
    rw [decodeFrom_last ⟨low, high⟩] at h
    refine found (by omega) ?_ h
    rw [units, if_neg (by omega), if_pos (by omega)]
    simp only [List.cons_append, List.nil_append, List.cons.injEq, and_true]
    omega
  by_cases three : 0xE0 ≤ b ∧ b < 0xF0
  · rw [opening_three three.1 three.2] at h
    dsimp only at h
    obtain ⟨b₁, rest, rfl, second⟩ := exists_of_decodeFrom h
    rw [decodeFrom_next second] at h
    obtain ⟨b₂, rest, rfl, low, high⟩ := exists_of_decodeFrom h
    rw [decodeFrom_last ⟨low, high⟩] at h
    -- The limits of the second byte leave out overlong forms and surrogates.
    have limits : 0x80 ≤ b₁ ∧ b₁ ≤ 0xBF ∧ (b = 0xE0 → 0xA0 ≤ b₁) ∧ (b = 0xED → b₁ ≤ 0x9F) := by
      split at second <;> split at second <;> omega
    refine found (by omega) ?_ h
    rw [units, if_neg (by omega), if_neg (by omega), if_pos (by omega)]
    simp only [List.cons_append, List.nil_append, List.cons.injEq, and_true]
    omega
  by_cases four : 0xF0 ≤ b ∧ b ≤ 0xF4
  · rw [opening_four four.1 four.2] at h
    dsimp only at h
    obtain ⟨b₁, rest, rfl, second⟩ := exists_of_decodeFrom h
    rw [decodeFrom_next second] at h
    obtain ⟨b₂, rest, rfl, third⟩ := exists_of_decodeFrom h
    rw [decodeFrom_next third] at h
    obtain ⟨b₃, rest, rfl, low, high⟩ := exists_of_decodeFrom h
    rw [decodeFrom_last ⟨low, high⟩] at h
    -- The limits of the second byte leave out overlong forms and what is past the last code point.
    have limits : 0x80 ≤ b₁ ∧ b₁ ≤ 0xBF ∧ (b = 0xF0 → 0x90 ≤ b₁) ∧ (b = 0xF4 → b₁ ≤ 0x8F) := by
      split at second <;> split at second <;> omega
    refine found (by omega) ?_ h
    rw [units, if_neg (by omega), if_neg (by omega), if_neg (by omega)]
    simp only [List.cons_append, List.nil_append, List.cons.injEq, and_true]
    omega
  · rw [opening_other (by omega)] at h
    cases h

/-! ## Texts -/

theorem decodeFrom_flatMap (cs : List Char) (position : Nat) :
    decodeFrom position none (cs.flatMap fun c => units c.toNat) = .ok cs := by
  induction cs generalizing position with
  | nil => rfl
  | cons c cs ih =>
    obtain ⟨next, read⟩ := decodeFrom_units c position (cs.flatMap fun c => units c.toNat)
    rw [List.flatMap_cons, read, ih]
    rfl

theorem eq_flatMap_of_decodeFrom {position : Nat} {bytes : List Nat} {cs : List Char}
    (h : decodeFrom position none bytes = .ok cs) : bytes = cs.flatMap fun c => units c.toNat := by
  -- What is left after a character is shorter.
  induction size : bytes.length using Nat.strongRecOn generalizing position bytes cs with
  | ind n ih =>
  cases bytes with
  | nil =>
    cases h
    rfl
  | cons b bytes =>
    obtain ⟨c, cs', rest, next, rfl, split, more⟩ := units_of_decodeFrom h
    have shorter : rest.length < n := by
      have filled := units_length_pos c.toNat
      rw [split, List.length_append] at size
      omega
    rw [split, ih rest.length shorter more rfl, List.flatMap_cons]

/-- **Bytes are read as the text that they encode**, and as no other. -/
theorem decode_eq_ok_iff {bytes : List UInt8} {text : String} :
    decode bytes = .ok text ↔ bytes = encode text := by
  have numbers : (encode text).map UInt8.toNat = text.toList.flatMap fun c => units c.toNat := by
    rw [encode, List.map_flatMap]
    simp only [map_utf8EncodeChar]
  have injective : Function.Injective (List.map UInt8.toNat) :=
    List.map_injective_iff.mpr fun _ _ => UInt8.toNat_inj.mp
  rw [decode, map_eq_ok, ← injective.eq_iff, numbers]
  constructor
  · rintro ⟨cs, read, rfl⟩
    rw [eq_flatMap_of_decodeFrom read, String.toList_ofList]
  · intro split
    exact ⟨text.toList, by rw [split, decodeFrom_flatMap], String.ofList_toList⟩

end Recast.Text.Utf8
