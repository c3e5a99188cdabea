import Mathlib.Data.List.Perm.Basic
import Recast.Proofs.Throughout

/-!
What an array contains. Its items are compared in order with a value that is no array, and the scan
ends at the first that is equal or cannot be compared, so an item that cannot be compared hides the
equal items behind it.

* `anyEquals_eq_true_iff`: what the scan finds;
* `mismatch_of_strictEq`: a comparison that fails is a type mismatch, the only fault that
  containment takes for a no;
* `contains_arranged`: the order of the items does not matter unless some are equal and others
  cannot be compared.
-/

namespace Recast.Value

/-! ## Comparisons that fail -/

theorem mismatch_of_kinds {a b : Value} {f : Fault}
    (h : (do let _ ← a.kind; let _ ← b.kind; return scalarEq a b : Except Fault Bool) = .error f) :
    f.kind = .typeMismatch := by
  have unknown : ∀ v : Value, v.kind = .error f → f.kind = .typeMismatch := by
    intro v failed
    unfold Value.kind at failed
    split at failed <;> cases failed
    rfl
  rcases bind_eq_error.mp h with failed | ⟨_, _, h⟩
  · exact unknown a failed
  · rcases bind_eq_error.mp h with failed | ⟨_, _, h⟩
    · exact unknown b failed
    · cases h

/-- A value whose comparisons fail with type mismatches only. -/
def Mismatches (v : Value) : Prop :=
  ∀ w f, strictEq v w = .error f → f.kind = .typeMismatch

theorem mismatch_of_strictEqItems {items others : List Value} {f : Fault}
    (each : ∀ v ∈ items, Mismatches v) (h : strictEqItems items others = .error f) :
    f.kind = .typeMismatch := by
  induction items generalizing others with
  | nil => cases h
  | cons v rest ih =>
    cases others with
    | nil => cases h
    | cons w others =>
      obtain ⟨first, later⟩ := List.forall_mem_cons.mp each
      rw [strictEqItems] at h
      rcases bind_eq_error.mp h with failed | ⟨same, _, h⟩
      · exact first w f failed
      · cases same with
        | true => exact ih later h
        | false => cases h

theorem mismatch_of_strictEqFields {fields others : Fields} {f : Fault}
    (each : ∀ g ∈ fields, Mismatches g.2) (h : strictEqFields fields others = .error f) :
    f.kind = .typeMismatch := by
  induction fields with
  | nil => cases h
  | cons field rest ih =>
    obtain ⟨name, v⟩ := field
    obtain ⟨first, later⟩ := List.forall_mem_cons.mp each
    rw [strictEqFields] at h
    rcases bind_eq_error.mp h with failed | ⟨same, _, h⟩
    · exact first _ f failed
    · cases same with
      | true => exact ih later h
      | false => cases h

/-- **A comparison that fails is a type mismatch.** -/
theorem mismatch_of_strictEq (a : Value) : Mismatches a := by
  intro b f h
  induction a using nested_induction generalizing b f with
  | array fixed items ih =>
    cases b with
    | array fixed' others =>
      rw [strictEq] at h
      split at h
      · exact mismatch_of_strictEqItems (fun v mem w g failed => ih v mem w g failed) h
      · cases h
    | _ => exact mismatch_of_kinds h
  | object fields ih =>
    cases b with
    | object others =>
      rw [strictEq] at h
      split at h
      · exact mismatch_of_strictEqFields (fun g mem w e failed => ih g mem w e failed) h
      · cases h
    | _ => exact mismatch_of_kinds h
  | _ => cases b <;> exact mismatch_of_kinds h

/-! ## The scan -/

/-- Whether a value can be compared with another. -/
def Answers (expected v : Value) : Prop := ∃ same, strictEq v expected = .ok same

section
variable {expected : Value} {items : List Value}

/-- An item is found if it is equal and all items before it can be compared. -/
theorem anyEquals_eq_true_iff : anyEquals expected items = .ok true ↔
    ∃ before v after, items = before ++ v :: after ∧ strictEq v expected = .ok true ∧
      ∀ w ∈ before, Answers expected w := by
  induction items with
  | nil => simp [anyEquals]
  | cons first rest ih =>
    rw [anyEquals]
    cases compared : strictEq first expected with
    | error f =>
      simp only [error_bind, reduceCtorEq, false_iff, not_exists, not_and]
      intro before v after split equal answers
      cases before with
      | nil =>
        cases split
        rw [compared] at equal
        cases equal
      | cons _ before =>
        cases split
        obtain ⟨same, answered⟩ := answers first List.mem_cons_self
        rw [compared] at answered
        cases answered
    | ok same =>
      cases same with
      | true =>
        simp only [ok_bind, if_true, pure_eq, true_iff]
        exact ⟨[], first, rest, rfl, compared, by simp⟩
      | false =>
        simp only [ok_bind, Bool.false_eq_true, if_false, ih]
        constructor
        · rintro ⟨before, v, after, rfl, equal, answers⟩
          exact ⟨first :: before, v, after, rfl, equal,
            List.forall_mem_cons.mpr ⟨⟨false, compared⟩, answers⟩⟩
        · rintro ⟨before, v, after, split, equal, answers⟩
          cases before with
          | nil =>
            cases split
            rw [compared] at equal
            cases equal
          | cons _ before =>
            cases split
            exact ⟨before, v, after, rfl, equal, (List.forall_mem_cons.mp answers).2⟩

theorem anyEquals_of_equal_first {v : Value} (equal : strictEq v expected = .ok true) :
    anyEquals expected (v :: items) = .ok true :=
  anyEquals_eq_true_iff.mpr ⟨[], v, items, rfl, equal, by simp⟩

theorem anyEquals_of_unanswered_first {v : Value} (unanswered : ¬ Answers expected v) :
    anyEquals expected (v :: items) ≠ .ok true := by
  intro found
  obtain ⟨before, w, after, split, equal, answers⟩ := anyEquals_eq_true_iff.mp found
  cases before with
  | nil =>
    cases split
    exact unanswered ⟨true, equal⟩
  | cons _ before =>
    cases split
    exact unanswered (answers v List.mem_cons_self)

/-! ## Arrays -/

/-- Whether an array contains a value that is no array is settled by the scan of its items. -/
theorem contains_array {v : Value} {p : Path} {fixed : Bool}
    (found : v.resolve p.elements = .array fixed items) (json : expected.isJson = true)
    (single : expected.kind? ≠ some .array) :
    v.contains p expected = true ↔ anyEquals expected items = .ok true := by
  have differ : strictEq (.array fixed items) expected = .ok false := by
    cases expected with
    | absent | foreign => cases json
    | array => exact absurd rfl single
    | _ => rfl
  have scanned : holds (.array fixed items) expected = anyEquals expected items := by
    rw [holds, differ]
    rfl
  rw [contains, found, scanned]
  cases anyEquals expected items <;> simp

/-- Among the items some are equal to a value, and some cannot be compared with it. -/
def Mixed (expected : Value) (items : List Value) : Prop :=
  (∃ v ∈ items, strictEq v expected = .ok true) ∧ ∃ v ∈ items, ¬ Answers expected v

theorem mixed_perm {others : List Value} (same : items.Perm others) :
    Mixed expected items ↔ Mixed expected others := by
  simp only [Mixed, same.mem_iff]

/-- Unless the items are mixed, the scan finds exactly an equal item. -/
theorem anyEquals_of_not_mixed (clear : ¬ Mixed expected items) :
    anyEquals expected items = .ok true ↔ ∃ v ∈ items, strictEq v expected = .ok true := by
  rw [anyEquals_eq_true_iff]
  constructor
  · rintro ⟨before, v, after, rfl, equal, _⟩
    exact ⟨v, by simp, equal⟩
  · rintro ⟨v, mem, equal⟩
    obtain ⟨before, after, rfl⟩ := List.append_of_mem mem
    refine ⟨before, v, after, rfl, equal, fun w inside => ?_⟩
    by_contra unanswered
    exact clear ⟨⟨v, mem, equal⟩, w, List.mem_append_left _ inside, unanswered⟩

/-- Items of both sorts can be arranged so that the scan has either answer. -/
theorem exists_arrangements (mixed : Mixed expected items) :
    (∃ others, items.Perm others ∧ anyEquals expected others = .ok true) ∧
      ∃ others, items.Perm others ∧ anyEquals expected others ≠ .ok true := by
  obtain ⟨⟨v, mem, equal⟩, w, mem', unanswered⟩ := mixed
  constructor
  · obtain ⟨before, after, rfl⟩ := List.append_of_mem mem
    exact ⟨v :: (before ++ after), List.perm_middle, anyEquals_of_equal_first equal⟩
  · obtain ⟨before, after, rfl⟩ := List.append_of_mem mem'
    exact ⟨w :: (before ++ after), List.perm_middle, anyEquals_of_unanswered_first unanswered⟩

end

/-- **Containing, whatever the order.** Take an array at a path and a JSON value that is no array.
An item that cannot be compared with the value has a fault of one kind, a type mismatch, and no
other failure comes up. The array contains the value exactly when an item is equal to it and all
items before that one can be compared. Unless some items are equal and others cannot be compared,
this means that some item is equal, and every array of the same items in any order gives the same
answer. Otherwise there are orders of the items with either answer. -/
theorem contains_arranged (v : Value) (p : Path) (fixed : Bool) (items : List Value)
    (expected : Value) (found : v.resolve p.elements = .array fixed items)
    (json : expected.isJson = true) (single : expected.kind? ≠ some .array) :
    (∀ w ∈ items, ∀ f, strictEq w expected = .error f → f.kind = .typeMismatch) ∧
    (v.contains p expected = true ↔
      ∃ before w after, items = before ++ w :: after ∧ strictEq w expected = .ok true ∧
        ∀ u ∈ before, Answers expected u) ∧
    (¬ Mixed expected items →
      (v.contains p expected = true ↔ ∃ w ∈ items, strictEq w expected = .ok true) ∧
      ∀ (other : Value) (q : Path) (fixed' : Bool) (others : List Value),
        other.resolve q.elements = .array fixed' others → items.Perm others →
        other.contains q expected = v.contains p expected) ∧
    (Mixed expected items →
      (∃ others, items.Perm others ∧ (list others).contains ⟨[], ""⟩ expected = true) ∧
      ∃ others, items.Perm others ∧ (list others).contains ⟨[], ""⟩ expected = false) := by
  have scan := contains_array found json single
  have whole : ∀ others : List Value, (list others).contains ⟨[], ""⟩ expected = true ↔
      anyEquals expected others = .ok true := fun others => contains_array rfl json single
  refine ⟨fun w _ f failed => mismatch_of_strictEq w expected f failed,
    scan.trans anyEquals_eq_true_iff, ?_, ?_⟩
  · intro clear
    have settled := scan.trans (anyEquals_of_not_mixed clear)
    refine ⟨settled, ?_⟩
    intro other q fixed' others found' same
    have clear' : ¬ Mixed expected others := mt (mixed_perm same).mpr clear
    have scan' := contains_array found' json single
    rw [Bool.eq_iff_iff, settled, scan', anyEquals_of_not_mixed clear']
    simp only [same.mem_iff]
  · intro mixed
    obtain ⟨⟨others, same, equal⟩, others', same', hidden⟩ := exists_arrangements mixed
    refine ⟨⟨others, same, (whole others).mpr equal⟩, others', same', ?_⟩
    exact Bool.eq_false_iff.mpr (mt (whole others').mp hidden)

/-- A row is found behind one that holds something foreign, which differs from it before that is
met, and so it is when the rows are turned around. -/
theorem contains_arranged_row :
    let expected : Value := .object [("n", .int 1), ("raw", .null)]
    let odd : Value := .object [("n", .int 2), ("raw", .foreign "bytes" "a")]
    let row : Value := .object [("raw", .null), ("n", .double (.finite false 1023 0))]
    let v : Value := .object [("rows", .list [odd, row])]
    let p : Path := ⟨[.field "rows"], "rows"⟩
    v.resolve p.elements = .array false [odd, row] ∧ expected.isJson = true ∧
      expected.kind? ≠ some .array ∧ v.contains p expected = true ∧
      (list [row, odd]).contains ⟨[], ""⟩ expected = v.contains p expected := by
  intro expected odd row v p
  have found : v.resolve p.elements = .array false [odd, row] := rfl
  have single : expected.kind? ≠ some .array := by decide
  have clear : ¬ Mixed expected [odd, row] := by
    rintro ⟨_, w, mem, unanswered⟩
    simp only [List.mem_cons, List.not_mem_nil, or_false] at mem
    rcases mem with rfl | rfl <;> exact unanswered ⟨_, rfl⟩
  obtain ⟨_, _, orderless, _⟩ := contains_arranged v p false [odd, row] expected found rfl single
  obtain ⟨settled, same⟩ := orderless clear
  exact ⟨found, rfl, single, settled.mpr ⟨row, by simp, rfl⟩,
    same _ ⟨[], ""⟩ false [row, odd] rfl (List.Perm.swap row odd [])⟩

/-- An item that cannot be compared hides an equal one behind it, which is found in front. -/
theorem contains_misses_item :
    let foreign : Value := .foreign "bytes" "a"
    let root : Path := ⟨[], ""⟩
    strictEq (.int 1) (.int 1) = .ok true ∧
      (list [foreign, .int 1]).contains root (.int 1) = false ∧
      (list [.int 1, foreign]).contains root (.int 1) = true := by
  exact ⟨rfl, rfl, rfl⟩

end Recast.Value
