import Recast.Json.Check
import Recast.Proofs.Lexemes
import Recast.Proofs.Throughout

/-!
What is written as JSON text and read again. An exact value has no doubles: it is null, a boolean,
an integer whose numeral is short enough, a text, or an array or object of exact values. Main
statements:

* `write_verdict`: exactly the values in which nothing is absent, foreign or too long are written;
* `readValue_write`: an exact value's text is read back, whatever follows it;
* `parse_print`: what is printed is parsed, and what is not printed is a type mismatch.
-/

namespace Recast

open Text

namespace Value

/-- Whether there is text for a value, its members left out. -/
def isWritten : Value → Bool
  | .absent | .foreign .. => false
  | .int n => Numeral.isWritable n.natAbs
  | _ => true

/-- Whether a value is written so that nothing is lost, its members left out: of a double this is
not asked, and the fields of an object have different names. -/
def isExact : Value → Bool
  | .absent | .foreign .. | .double _ => false
  | .int n => Numeral.isWritable n.natAbs
  | .object fields => (Fields.names fields).Nodup
  | _ => true

end Value

namespace Json

/-! ## What is written -/

/-- A writer gives text where it should, and elsewhere fails on the type of a value. -/
def Verdict {α : Type} (written : Bool) : Except Cause α → Prop
  | .ok _ => written = true
  | .error cause => written = false ∧ cause.kind = .typeMismatch

theorem Verdict.bind {α β : Type} {a b : Bool} {x : Except Cause α} {f : α → Except Cause β}
    (first : Verdict a x) (next : ∀ t, Verdict b (f t)) : Verdict (a && b) (x >>= f) := by
  cases x with
  | ok t =>
    have passed : a = true := first
    rw [passed, Bool.true_and]
    exact next t
  | error cause =>
    obtain ⟨failed, kind⟩ := first
    refine ⟨?_, kind⟩
    rw [failed, Bool.false_and]

theorem Verdict.map {α β : Type} {a : Bool} {x : Except Cause α} (h : Verdict a x) (g : α → β) :
    Verdict a (x >>= fun t => pure (g t)) := by
  have step := h.bind (b := true) (f := fun t => pure (g t)) fun _ => rfl
  rwa [Bool.and_true] at step

mutual

/-- **Writing.** A value has a text if and only if nothing in it is absent, foreign or an integer
with too many digits; otherwise the fault is a type mismatch. -/
theorem write_verdict (layout : Layout) (level : Nat) (v : Value) :
    Verdict (v.all Value.isWritten) (write layout level v) := by
  cases v with
  | absent => exact ⟨rfl, rfl⟩
  | null => exact rfl
  | bool b => exact rfl
  | int n =>
    rw [write]
    by_cases writable : Numeral.isWritable n.natAbs = true
    · rw [if_pos writable]
      exact writable
    · rw [if_neg writable]
      exact ⟨by simpa [Value.all, Value.isWritten] using writable, rfl⟩
  | double d => exact rfl
  | string s => exact rfl
  | array fixed items =>
    cases items with
    | nil => exact rfl
    | cons v rest =>
      rw [write]
      exact (writeItems_verdict layout (level + 1) (v :: rest)).map _
  | object fields =>
    cases fields with
    | nil => exact rfl
    | cons field rest =>
      rw [write]
      exact (writeFields_verdict layout (level + 1) (field :: rest)).map _
  | foreign typeName text => exact ⟨rfl, rfl⟩

theorem writeItems_verdict (layout : Layout) (level : Nat) (items : List Value) :
    Verdict (Value.allItems Value.isWritten items) (writeItems layout level items) := by
  match items with
  | [] => exact rfl
  | [v] =>
    rw [writeItems, Value.allItems, Value.allItems, Bool.and_true]
    exact write_verdict layout level v
  | v :: w :: rest =>
    rw [writeItems, Value.allItems]
    · exact (write_verdict layout level v).bind fun first =>
        (writeItems_verdict layout level (w :: rest)).map _
    · exact List.cons_ne_nil w rest

theorem writeFields_verdict (layout : Layout) (level : Nat) (fields : Fields) :
    Verdict (Value.allFields Value.isWritten fields) (writeFields layout level fields) := by
  match fields with
  | [] => exact rfl
  | [(name, v)] =>
    rw [writeFields, Value.allFields, Value.allFields, Bool.and_true]
    exact (write_verdict layout level v).map _
  | (name, v) :: field :: rest =>
    rw [writeFields, Value.allFields]
    · exact (write_verdict layout level v).bind fun value =>
        (writeFields_verdict layout level (field :: rest)).map _
    · exact List.cons_ne_nil field rest

end

/-! ## What stands around values -/

/-- A character with which the text of a value can start. -/
def Opens (c : Char) : Prop :=
  isSpace c = false ∧ isBlank c = false ∧ c ≠ ']' ∧ c ≠ '\uFEFF'

instance : DecidablePred Opens :=
  fun c => inferInstanceAs
    (Decidable (isSpace c = false ∧ isBlank c = false ∧ c ≠ ']' ∧ c ≠ '\uFEFF'))

theorem opens_of_isDigit {c : Char} (digit : c.isDigit = true) : Opens c := by
  have all : ∀ n < 58, 48 ≤ n → Opens (Char.ofNat n) := by decide
  have bounds : 48 ≤ c.toNat ∧ c.toNat ≤ 57 := by
    simpa [Char.isDigit, UInt32.le_iff_toNat_le] using digit
  have opens := all c.toNat (by omega) bounds.1
  rwa [Char.ofNat_toNat] at opens

/-- The text of an exact value does not start with space. -/
theorem write_opens {layout : Layout} {level : Nat} {v : Value} {text : List Char}
    (exact : v.isExact = true) (written : write layout level v = .ok text) :
    ∃ c cs, text = c :: cs ∧ Opens c := by
  cases v with
  | absent | foreign => cases exact
  | double d => cases exact
  | null =>
    cases written
    exact ⟨_, _, rfl, by decide⟩
  | bool b =>
    cases written
    cases b <;> exact ⟨_, _, rfl, by decide⟩
  | int n =>
    have writable : Numeral.isWritable n.natAbs = true := exact
    rw [write, if_pos writable] at written
    cases written
    unfold Numeral.writeInt
    by_cases negative : n < 0
    · rw [if_pos negative]
      exact ⟨_, _, rfl, by decide⟩
    · rw [if_neg negative]
      obtain ⟨d, ds, numeral, digit⟩ := Numeral.exists_write n.natAbs
      exact ⟨d, ds, numeral, opens_of_isDigit digit⟩
  | string s =>
    cases written
    exact ⟨_, _, rfl, by decide⟩
  | array fixed items =>
    cases items with
    | nil =>
      cases written
      exact ⟨_, _, rfl, by decide⟩
    | cons v rest =>
      rw [write] at written
      obtain ⟨inside, _, whole⟩ := bind_eq_ok.mp written
      cases whole
      exact ⟨_, _, rfl, by decide⟩
  | object fields =>
    cases fields with
    | nil =>
      cases written
      exact ⟨_, _, rfl, by decide⟩
    | cons field rest =>
      rw [write] at written
      obtain ⟨inside, _, whole⟩ := bind_eq_ok.mp written
      cases whole
      exact ⟨_, _, rfl, by decide⟩

theorem skipSpace_append {gap : List Char} (all : ∀ c ∈ gap, isSpace c = true) (s : List Char) :
    skipSpace (gap ++ s) = skipSpace s := List.dropWhile_append_of_pos all

theorem skipSpace_cons {c : Char} (other : isSpace c = false) (s : List Char) :
    skipSpace (c :: s) = c :: s := List.dropWhile_cons_of_neg (by simp [other])

/-- Space in front of a text that starts with none is passed over. -/
theorem skipSpace_gap {gap : List Char} (all : ∀ c ∈ gap, isSpace c = true) {c : Char}
    (other : isSpace c = false) (cs s : List Char) :
    skipSpace (gap ++ (c :: cs ++ s)) = c :: cs ++ s := by
  rw [skipSpace_append all, List.cons_append, skipSpace_cons other]

theorem isSpace_of_mem_newline {layout : Layout} {level : Nat} {c : Char}
    (mem : c ∈ layout.newline level) : isSpace c = true := by
  cases layout with
  | compact => cases mem
  | pretty =>
    rcases List.mem_cons.mp mem with rfl | mem
    · decide
    · rw [List.eq_of_mem_replicate mem]
      decide

theorem isSpace_of_mem_single : ∀ c ∈ [' '], isSpace c = true := by
  intro c mem
  rw [List.mem_singleton.mp mem]
  decide

/-- Two members have a comma between them, and then only space. -/
theorem comma_eq (layout : Layout) (level : Nat) :
    ∃ gap, layout.comma level = ',' :: gap ∧ ∀ c ∈ gap, isSpace c = true := by
  cases layout with
  | compact => exact ⟨[' '], rfl, isSpace_of_mem_single⟩
  | pretty => exact ⟨Layout.pretty.newline level, rfl, fun c mem => isSpace_of_mem_newline mem⟩

/-- After the last member of a container no numeral goes on. -/
theorem endsNumeral_close (layout : Layout) (level : Nat) {close : Char} (rest : List Char)
    (closes : close = ']' ∨ close = '\x7d') :
    EndsNumeral (layout.newline level ++ close :: rest) := by
  cases layout with
  | compact =>
    rcases closes with rfl | rfl
    · exact ⟨by decide, by decide, by decide, by decide⟩
    · exact ⟨by decide, by decide, by decide, by decide⟩
  | pretty => exact ⟨by decide, by decide, by decide, by decide⟩

theorem endsNumeral_comma (s : List Char) : EndsNumeral (',' :: s) :=
  ⟨by decide, by decide, by decide, by decide⟩

/-! ## What is read -/

theorem readValue_scalar {c : Char} {s : List Char} (fuel : Nat) (text : c ≠ '"') (array : c ≠ '[')
    (object : c ≠ '\x7b') : readValue (fuel + 1) (c :: s) = readScalar (c :: s) := by
  rw [readValue]
  · exact fun rest same => text (List.cons.inj same).1
  · exact fun rest same => array (List.cons.inj same).1
  · exact fun rest same => object (List.cons.inj same).1

theorem readValue_writeInt {n : Int} (writable : Numeral.isWritable n.natAbs = true) {fuel : Nat}
    {rest : List Char} (ends : EndsNumeral rest) :
    readValue (fuel + 1) (Numeral.writeInt n ++ rest) = .ok (.int n, rest) := by
  have read := readScalar_writeInt writable ends
  have first : ∃ c cs, Numeral.writeInt n = c :: cs ∧ (c = '-' ∨ c.isDigit = true) := by
    unfold Numeral.writeInt
    by_cases negative : n < 0
    · rw [if_pos negative]
      exact ⟨_, _, rfl, Or.inl rfl⟩
    · rw [if_neg negative]
      obtain ⟨d, ds, numeral, digit⟩ := Numeral.exists_write n.natAbs
      exact ⟨d, ds, numeral, Or.inr digit⟩
  obtain ⟨c, cs, numeral, kind⟩ := first
  have other : ∀ d : Char, d.isDigit = false → d ≠ '-' → c ≠ d := by
    rintro d noDigit noSign rfl
    rcases kind with sign | digit
    · exact noSign sign
    · rw [digit] at noDigit
      cases noDigit
  rw [numeral, List.cons_append] at read ⊢
  rw [readValue_scalar fuel (other _ (by decide) (by decide)) (other _ (by decide) (by decide))
    (other _ (by decide) (by decide))]
  exact read

theorem readValue_writeText (s : String) (fuel : Nat) (rest : List Char) :
    readValue (fuel + 1) (writeText s ++ rest) = .ok (.string s, rest) := by
  have whole : writeText s ++ rest = '"' :: (s.toList.flatMap escape ++ '"' :: rest) := by
    simp [writeText]
  rw [whole, readValue, readText_writeText]
  simp

/-! ### Members -/

theorem writeItems_opens {layout : Layout} {level : Nat} {items : List Value} {text : List Char}
    (filled : items ≠ []) (exact : ∀ v ∈ items, v.all Value.isExact = true)
    (written : writeItems layout level items = .ok text) : ∃ c cs, text = c :: cs ∧ Opens c := by
  match items with
  | [v] =>
    rw [writeItems] at written
    exact write_opens (Value.test_of_all (exact v List.mem_cons_self)) written
  | v :: w :: rest =>
    rw [writeItems] at written
    · obtain ⟨first, firstWritten, next⟩ := bind_eq_ok.mp written
      obtain ⟨others, _, whole⟩ := bind_eq_ok.mp next
      cases whole
      obtain ⟨c, cs, split, opens⟩ :=
        write_opens (Value.test_of_all (exact v List.mem_cons_self)) firstWritten
      exact ⟨c, _, by rw [split]; rfl, opens⟩
    · exact List.cons_ne_nil w rest

theorem writeFields_opens {layout : Layout} {level : Nat} {fields : Fields} {text : List Char}
    (filled : fields ≠ []) (written : writeFields layout level fields = .ok text) :
    ∃ cs, text = '"' :: cs := by
  match fields with
  | [(name, v)] =>
    rw [writeFields] at written
    obtain ⟨value, _, whole⟩ := bind_eq_ok.mp written
    cases whole
    exact ⟨_, rfl⟩
  | (name, v) :: field :: rest =>
    rw [writeFields] at written
    · obtain ⟨value, _, next⟩ := bind_eq_ok.mp written
      obtain ⟨others, _, whole⟩ := bind_eq_ok.mp next
      cases whole
      exact ⟨_, rfl⟩
    · exact List.cons_ne_nil field rest

section
variable {fuel : Nat} {s after rest : List Char} {item : Value}

theorem readValue_items {c : Char} {cs : List Char} {items : List Value}
    (start : skipSpace s = c :: cs) (filled : c ≠ ']')
    (read : readItems fuel (c :: cs) = .ok (items, rest)) :
    readValue (fuel + 1) ('[' :: s) = .ok (.list items, rest) := by
  rw [readValue, start]
  split
  · rename_i empty
    exact absurd (List.cons.inj empty).1 filled
  · rw [read]
    rfl

theorem readItems_last (read : readValue fuel s = .ok (item, after))
    (close : skipSpace after = ']' :: rest) : readItems (fuel + 1) s = .ok ([item], rest) := by
  rw [readItems, read]
  simp only [ok_bind, close]
  rfl

theorem readItems_next {items : List Value} (read : readValue fuel s = .ok (item, ',' :: after))
    (others : readItems fuel (skipSpace after) = .ok (items, rest)) :
    readItems (fuel + 1) s = .ok (item :: items, rest) := by
  rw [readItems, read]
  simp only [ok_bind, skipSpace_cons (c := ',') (by decide), others]
  rfl

theorem readValue_fields {cs : List Char} {fields : Fields} (start : skipSpace s = '"' :: cs)
    (read : readFields fuel ('"' :: cs) = .ok (fields, rest))
    (nodup : (Fields.names fields).Nodup) :
    readValue (fuel + 1) ('\x7b' :: s) = .ok (.object fields, rest) := by
  have kept : Fields.setAll [] fields = fields := Fields.setAll_of_nodup nodup
  rw [readValue, start]
  split
  · rename_i empty
    cases (List.cons.inj empty).1
  · rw [read]
    simp only [ok_bind, kept]
    rfl

variable (name : String)

theorem readFields_last (read : readValue fuel (skipSpace s) = .ok (item, after))
    (close : skipSpace after = '\x7d' :: rest) :
    readFields (fuel + 1) (writeText name ++ ':' :: s) = .ok ([(name, item)], rest) := by
  have whole : writeText name ++ ':' :: s =
      '"' :: (name.toList.flatMap escape ++ '"' :: ':' :: s) := by simp [writeText]
  rw [whole, readFields, readText_writeText]
  simp only [ok_bind, skipSpace_cons (c := ':') (by decide), read, close]
  simp

theorem readFields_next {fields : Fields}
    (read : readValue fuel (skipSpace s) = .ok (item, ',' :: after))
    (others : readFields fuel (skipSpace after) = .ok (fields, rest)) :
    readFields (fuel + 1) (writeText name ++ ':' :: s) = .ok ((name, item) :: fields, rest) := by
  have whole : writeText name ++ ':' :: s =
      '"' :: (name.toList.flatMap escape ++ '"' :: ':' :: s) := by simp [writeText]
  rw [whole, readFields, readText_writeText]
  simp only [ok_bind, skipSpace_cons (c := ':') (by decide), read,
    skipSpace_cons (c := ',') (by decide), others]
  simp

end

/-! ### Values -/

mutual

/-- **Reading.** The text of an exact value is read back, with its members in order, whatever
follows that does not go on with a numeral. -/
theorem readValue_write {layout : Layout} {level : Nat} {v : Value} {text : List Char}
    (exact : v.all Value.isExact = true) (written : write layout level v = .ok text) {fuel : Nat}
    (enough : 2 * text.length ≤ fuel) {rest : List Char} (ends : EndsNumeral rest) :
    readValue fuel (text ++ rest) = .ok (v.pliant, rest) := by
  obtain ⟨c, cs, split, _⟩ := write_opens (Value.test_of_all exact) written
  have some : 1 ≤ text.length := by simp [split]
  have more : ∃ f, fuel = f + 1 := Nat.exists_eq_add_one.mpr (by omega)
  obtain ⟨fuel, rfl⟩ := more
  cases v with
  | absent | foreign => cases exact
  | double d => cases exact
  | null =>
    cases written
    rfl
  | bool b =>
    cases written
    cases b <;> rfl
  | int n =>
    have writable : Numeral.isWritable n.natAbs = true := exact
    rw [write, if_pos writable] at written
    cases written
    exact readValue_writeInt writable ends
  | string s =>
    cases written
    exact readValue_writeText s fuel rest
  | array fixed items =>
    cases items with
    | nil =>
      cases written
      rfl
    | cons v items =>
      rw [write] at written
      obtain ⟨inside, itemsWritten, whole⟩ := bind_eq_ok.mp written
      cases whole
      have members := (Value.all_array_iff.mp exact).2
      obtain ⟨c, cs, start, opens⟩ :=
        writeItems_opens (List.cons_ne_nil v items) members itemsWritten
      let tail := layout.newline level ++ ']' :: rest
      have read : readItems fuel (inside ++ tail) = .ok (Value.pliantItems (v :: items), rest) := by
        apply readItems_write (List.cons_ne_nil v items) members itemsWritten
        · simp at enough
          omega
        · exact endsNumeral_close layout level rest (Or.inl rfl)
        · rw [skipSpace_append fun _ mem => isSpace_of_mem_newline mem]
          rfl
      subst start
      have space : ∀ c ∈ layout.newline (level + 1), isSpace c = true :=
        fun _ mem => isSpace_of_mem_newline mem
      have first := skipSpace_gap space opens.1 cs tail
      have array := readValue_items first opens.2.2.1 read
      simpa [tail, Value.pliant] using array
  | object fields =>
    cases fields with
    | nil =>
      cases written
      rfl
    | cons field fields =>
      rw [write] at written
      obtain ⟨inside, fieldsWritten, whole⟩ := bind_eq_ok.mp written
      cases whole
      obtain ⟨distinct, members⟩ := Value.all_object_iff.mp exact
      obtain ⟨cs, start⟩ := writeFields_opens (List.cons_ne_nil field fields) fieldsWritten
      let tail := layout.newline level ++ '\x7d' :: rest
      have read : readFields fuel (inside ++ tail) =
          .ok (Value.pliantFields (field :: fields), rest) := by
        apply readFields_write (List.cons_ne_nil field fields) members fieldsWritten
        · simp at enough
          omega
        · exact endsNumeral_close layout level rest (Or.inr rfl)
        · rw [skipSpace_append fun _ mem => isSpace_of_mem_newline mem]
          rfl
      subst start
      have space : ∀ c ∈ layout.newline (level + 1), isSpace c = true :=
        fun _ mem => isSpace_of_mem_newline mem
      have first := skipSpace_gap space (c := '"') (by decide) cs tail
      have nodup : (Fields.names (Value.pliantFields (field :: fields))).Nodup := by
        rw [Value.names_pliantFields]
        exact of_decide_eq_true distinct
      have object := readValue_fields first read nodup
      simpa [tail, Value.pliant] using object

theorem readItems_write {layout : Layout} {level : Nat} {items : List Value} {text : List Char}
    (filled : items ≠ []) (exact : ∀ v ∈ items, v.all Value.isExact = true)
    (written : writeItems layout level items = .ok text) {fuel : Nat}
    (enough : 2 * text.length + 1 ≤ fuel) {tail rest : List Char} (ends : EndsNumeral tail)
    (close : skipSpace tail = ']' :: rest) :
    readItems fuel (text ++ tail) = .ok (Value.pliantItems items, rest) := by
  have more : ∃ f, fuel = f + 1 := Nat.exists_eq_add_one.mpr (by omega)
  obtain ⟨fuel, rfl⟩ := more
  match items with
  | [v] =>
    rw [writeItems] at written
    have read : readValue fuel (text ++ tail) = .ok (v.pliant, tail) :=
      readValue_write (exact v List.mem_cons_self) written (by omega) ends
    exact readItems_last read close
  | v :: w :: items =>
    rw [writeItems] at written
    · obtain ⟨first, firstWritten, next⟩ := bind_eq_ok.mp written
      obtain ⟨others, othersWritten, whole⟩ := bind_eq_ok.mp next
      cases whole
      have later : ∀ v ∈ w :: items, v.all Value.isExact = true :=
        fun v mem => exact v (List.mem_cons_of_mem _ mem)
      obtain ⟨gap, comma, space⟩ := comma_eq layout level
      obtain ⟨c, cs, start, opens⟩ :=
        writeItems_opens (List.cons_ne_nil w items) later othersWritten
      rw [comma] at enough ⊢
      simp only [List.length_append, List.length_cons] at enough
      let after := gap ++ (others ++ tail)
      have read : readValue fuel (first ++ ',' :: after) = .ok (v.pliant, ',' :: after) :=
        readValue_write (exact v List.mem_cons_self) firstWritten (by omega)
          (endsNumeral_comma after)
      have readOthers : readItems fuel (others ++ tail) =
          .ok (Value.pliantItems (w :: items), rest) :=
        readItems_write (List.cons_ne_nil w items) later othersWritten (by omega) ends close
      subst start
      rw [← skipSpace_gap space opens.1] at readOthers
      have all := readItems_next read readOthers
      simpa [after, Value.pliantItems] using all
    · exact List.cons_ne_nil w items

theorem readFields_write {layout : Layout} {level : Nat} {fields : Fields} {text : List Char}
    (filled : fields ≠ []) (exact : ∀ f ∈ fields, f.2.all Value.isExact = true)
    (written : writeFields layout level fields = .ok text) {fuel : Nat}
    (enough : 2 * text.length + 1 ≤ fuel) {tail rest : List Char} (ends : EndsNumeral tail)
    (close : skipSpace tail = '\x7d' :: rest) :
    readFields fuel (text ++ tail) = .ok (Value.pliantFields fields, rest) := by
  have more : ∃ f, fuel = f + 1 := Nat.exists_eq_add_one.mpr (by omega)
  obtain ⟨fuel, rfl⟩ := more
  match fields with
  | [(name, v)] =>
    rw [writeFields] at written
    obtain ⟨value, valueWritten, whole⟩ := bind_eq_ok.mp written
    cases whole
    obtain ⟨c, cs, start, opens⟩ :=
      write_opens (Value.test_of_all (exact (name, v) List.mem_cons_self)) valueWritten
    simp only [List.length_append, List.length_cons] at enough
    have read : readValue fuel (value ++ tail) = .ok (v.pliant, tail) :=
      readValue_write (exact (name, v) List.mem_cons_self) valueWritten (by omega) ends
    subst start
    rw [← skipSpace_gap isSpace_of_mem_single opens.1] at read
    have field := readFields_last name read close
    simpa [Value.pliantFields] using field
  | (name, v) :: field :: fields =>
    rw [writeFields] at written
    · obtain ⟨value, valueWritten, next⟩ := bind_eq_ok.mp written
      obtain ⟨others, othersWritten, whole⟩ := bind_eq_ok.mp next
      cases whole
      have later : ∀ f ∈ field :: fields, f.2.all Value.isExact = true :=
        fun f mem => exact f (List.mem_cons_of_mem _ mem)
      obtain ⟨gap, comma, space⟩ := comma_eq layout level
      obtain ⟨c, cs, start, opens⟩ :=
        write_opens (Value.test_of_all (exact (name, v) List.mem_cons_self)) valueWritten
      obtain ⟨ds, quote⟩ := writeFields_opens (List.cons_ne_nil field fields) othersWritten
      rw [comma] at enough ⊢
      simp only [List.length_append, List.length_cons] at enough
      let after := gap ++ (others ++ tail)
      have read : readValue fuel (value ++ ',' :: after) = .ok (v.pliant, ',' :: after) :=
        readValue_write (exact (name, v) List.mem_cons_self) valueWritten (by omega)
          (endsNumeral_comma after)
      have readOthers : readFields fuel (others ++ tail) =
          .ok (Value.pliantFields (field :: fields), rest) :=
        readFields_write (List.cons_ne_nil field fields) later othersWritten (by omega) ends close
      subst start quote
      rw [← skipSpace_gap isSpace_of_mem_single opens.1] at read
      rw [← skipSpace_gap space (c := '"') (by decide)] at readOthers
      have all := readFields_next name read readOthers
      simpa [after, Value.pliantFields] using all
    · exact List.cons_ne_nil field fields

end

/-! ## Whole texts -/

/-- An exact value's text is not taken for an empty input. -/
theorem isBlankText_print {c : Char} {cs : List Char} (opens : Opens c) :
    isBlankText (String.ofList (c :: cs)) = false := by
  simp [isBlankText, opens.2.1]

theorem read_write {layout : Layout} {v : Value} {text : List Char}
    (exact : v.all Value.isExact = true) (written : write layout 0 v = .ok text) :
    read (String.ofList text) = .ok v.pliant := by
  obtain ⟨c, cs, start, opens⟩ := write_opens (Value.test_of_all exact) written
  have skipped : skipSpace text = text := by rw [start, skipSpace_cons opens.1]
  have value : readValue (2 * text.length + 2) (text ++ []) = .ok (v.pliant, []) :=
    readValue_write exact written (by omega) trivial
  have whole : readWhole text = .ok v.pliant := by
    unfold readWhole
    split
    · exact absurd (List.cons.inj start).1.symm opens.2.2.2
    · rw [skipped]
      rw [List.append_nil] at value
      rw [value]
      rfl
  rw [read, String.toList_ofList, whole]

/-- Exact values have text. -/
theorem isWritten_of_isExact {v : Value} (exact : v.all Value.isExact = true) :
    v.all Value.isWritten = true := by
  refine Value.all_imp ?_ exact
  intro w test
  cases w with
  | absent | foreign => cases test
  | double d => cases test
  | int n => exact test
  | null | bool | string | array | object => rfl

/-- **Round trip.** Of a value that is made of null, booleans, integers whose numerals are short
enough, texts, arrays and objects whose fields have different names, the text can be printed, and to
parse it gives the value back, with a list for each array and with each object's fields in order.
Printing any value fails if and only if something in it is absent or foreign or an integer with too
many digits, and then with a type mismatch. -/
theorem parse_print (layout : Layout) (v : Value) :
    (v.all Value.isExact = true →
      ∃ text, print layout v = .ok text ∧ parse (.string text) = .ok v.pliant) ∧
    ((∃ f, print layout v = .error f ∧ f.kind = .typeMismatch) ↔
      v.all Value.isWritten = false) ∧
    ∀ f, print layout v = .error f → f.kind = .typeMismatch := by
  have verdict := write_verdict layout 0 v
  cases written : write layout 0 v with
  | ok text =>
    rw [written] at verdict
    have passed : v.all Value.isWritten = true := verdict
    have printed : print layout v = .ok (String.ofList text) := by rw [print, written]
    refine ⟨?_, ?_, ?_⟩
    · intro exact
      obtain ⟨c, cs, start, opens⟩ := write_opens (Value.test_of_all exact) written
      refine ⟨String.ofList text, printed, ?_⟩
      have filled : isBlankText (String.ofList text) = false := by
        rw [start]
        exact isBlankText_print opens
      have back := read_write exact written
      simp [parse, check, filled, back, mapError_eq_ok]
    · simp [printed, passed]
    · simp [printed]
  | error cause =>
    rw [written] at verdict
    obtain ⟨failed, kind⟩ := verdict
    have printed : print layout v = .error { cause } := by rw [print, written]
    refine ⟨?_, ?_, ?_⟩
    · intro exact
      rw [isWritten_of_isExact exact] at failed
      cases failed
    · simp [printed, failed, Fault.kind, kind]
    · simp [printed, Fault.kind, kind]

theorem parse_print_nested :
    let v := Value.object [("rows", .array true [.int (-120), .null, .list []]),
      ("\"\n\x01", .string "\\é"), ("", .object [])]
    v.all Value.isExact = true ∧
      ∀ layout, ∃ text, print layout v = .ok text ∧
        parse (.string text) = .ok (.object [("rows", .list [.int (-120), .null, .list []]),
          ("\"\n\x01", .string "\\é"), ("", .object [])]) := by
  intro v
  have exact : v.all Value.isExact = true := by decide
  exact ⟨exact, fun layout => (parse_print layout v).1 exact⟩

end Json

end Recast
