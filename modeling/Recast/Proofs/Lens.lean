import Recast.Proofs.Update
import Recast.Rule.Basic

/-!
Reading and writing at one place. Writing what a path finds there changes nothing
(`update_resolve`). Of two writes to one place the second alone counts: the containers that the
first one made on its way are those that the second would have made (`update_update`), and whether
a write succeeds does not hang on what is written (`isSome_update`). Main statement: `write_lens`.
-/

namespace Recast

namespace Fields

theorem set_get {name : String} {fields : Fields} (present : get name fields ≠ .absent) :
    set name (get name fields) fields = fields := by
  induction fields with
  | nil => exact absurd rfl present
  | cons field rest ih =>
    obtain ⟨key, old⟩ := field
    by_cases hk : key = name
    · simp [set, get, hk]
    · simp only [get, hk, if_false] at present
      simp only [set, get, hk, if_false, ih present]

theorem set_set (name : String) (v w : Value) (fields : Fields) :
    set name w (set name v fields) = set name w fields := by
  induction fields with
  | nil => simp [set]
  | cons field rest ih =>
    obtain ⟨key, old⟩ := field
    by_cases hk : key = name <;> simp [set, hk, ih]

end Fields

namespace Value

/-! ## One step -/

theorem length_setItem (n : Nat) (v : Value) (items : List Value) :
    (setItem n v items).length = if n < items.length then items.length else items.length + 1 := by
  induction items generalizing n with
  | nil => rfl
  | cons old rest ih =>
    cases n with
    | zero => simp [setItem]
    | succ n =>
      simp only [setItem, Nat.succ_ne_zero, if_false, Nat.add_sub_cancel, List.length_cons, ih]
      split <;> split <;> omega

theorem setItem_item {n : Nat} {items : List Value} (inside : n < items.length) :
    setItem n (item n items) items = items := by
  induction items generalizing n with
  | nil => cases inside
  | cons old rest ih =>
    cases n with
    | zero => rfl
    | succ n => simpa [setItem, item] using ih (by simpa using inside)

theorem setItem_setItem {n : Nat} {items : List Value} (inside : n ≤ items.length) (v w : Value) :
    setItem n w (setItem n v items) = setItem n w items := by
  induction items generalizing n with
  | nil =>
    obtain rfl : n = 0 := by simpa using inside
    rfl
  | cons old rest ih =>
    cases n with
    | zero => rfl
    | succ n => simpa [setItem] using ih (by simpa using inside)

section
variable {container : Value} {e : Element}

/-- A member that is not in a fixed array is a field of an object or an item of a list. -/
theorem shape_of_select (loose : container.isFixed = false)
    (present : container.select e ≠ .absent) :
    (∃ name fields, e = .field name ∧ container = .object fields ∧
      Fields.get name fields ≠ .absent) ∨
    ∃ n items, e = .index n ∧ container = .list items ∧ n < items.length := by
  cases e with
  | field name =>
    cases container with
    | object fields => exact Or.inl ⟨name, fields, rfl, rfl, present⟩
    | _ => exact absurd rfl present
  | index n =>
    cases container with
    | array fixed items =>
      obtain rfl : fixed = false := loose
      exact Or.inr ⟨n, items, rfl, rfl, lt_length_of_item n items present⟩
    | _ => exact absurd rfl present

/-- A container admits what it has a member for. -/
theorem refusal?_of_select (loose : container.isFixed = false)
    (present : container.select e ≠ .absent) : container.refusal? e = none := by
  apply refusal?_eq_none_iff.mpr
  rcases shape_of_select loose present with
    ⟨name, fields, rfl, rfl, _⟩ | ⟨n, items, rfl, rfl, inside⟩
  · exact Or.inl ⟨name, fields, rfl, rfl⟩
  · exact Or.inr ⟨n, items, rfl, rfl, Nat.le_of_lt inside⟩

theorem place_select (loose : container.isFixed = false) (present : container.select e ≠ .absent) :
    container.place e (container.select e) = container := by
  rcases shape_of_select loose present with
    ⟨name, fields, rfl, rfl, found⟩ | ⟨n, items, rfl, rfl, inside⟩
  · exact congrArg Value.object (Fields.set_get found)
  · exact congrArg Value.list (setItem_item inside)

theorem refusal?_place (admitted : container.refusal? e = none) (x : Value) :
    (container.place e x).refusal? e = none := by
  apply refusal?_eq_none_iff.mpr
  rcases refusal?_eq_none_iff.mp admitted with
    ⟨name, fields, rfl, rfl⟩ | ⟨n, items, rfl, rfl, inside⟩
  · exact Or.inl ⟨name, _, rfl, rfl⟩
  · refine Or.inr ⟨n, _, rfl, rfl, ?_⟩
    rw [length_setItem]
    split <;> omega

theorem place_place (admitted : container.refusal? e = none) (x y : Value) :
    (container.place e x).place e y = container.place e y := by
  rcases refusal?_eq_none_iff.mp admitted with
    ⟨name, fields, rfl, rfl⟩ | ⟨n, items, rfl, rfl, inside⟩
  · exact congrArg Value.object (Fields.set_set name x y fields)
  · exact congrArg Value.list (setItem_setItem inside x y)

/-! ## A whole write -/

/-- A write that enters what was just placed goes on from there. -/
theorem update_place (admitted : container.refusal? e = none) {v x new : Value}
    {rest : List Element} :
    update v (e :: rest) (container.place e x) = some new ↔
      ∃ y, update v rest x = some y ∧ container.place e y = new := by
  have suits := suits_place (suits_of_refusal? admitted) x
  rw [update_cons, enter_of_suits suits, select_place _ _ _ admitted]
  simp only [refusal?_place admitted x, place_place admitted x, true_and]

end

theorem select_of_resolve {e : Element} {rest : List Element} {tree : Value}
    (present : tree.resolve (e :: rest) ≠ .absent) : tree.select e ≠ .absent := by
  intro absent
  apply present
  rw [resolve, absent, resolve_absent]

/-- **Get, then put.** Writing what a path finds leaves the tree as it is. -/
theorem update_resolve {p : List Element} {tree : Value} (loose : Loose p tree)
    (present : tree.resolve p ≠ .absent) : update (tree.resolve p) p tree = some tree := by
  induction p generalizing tree with
  | nil => rfl
  | cons e rest ih =>
    have member := select_of_resolve present
    have admitted := refusal?_of_select loose.1 member
    rw [update_cons, enter_of_suits (suits_of_refusal? admitted)]
    exact ⟨admitted, _, ih loose.2 present, place_select loose.1 member⟩

/-- **Put, then put.** A second write to a place starts where the first one did: whatever the first
one made or replaced on its way, the second makes or replaces in the same manner. -/
theorem update_update {v old new : Value} {p : List Element} (first : update v p old = some new)
    (w : Value) : update w p new = update w p old := by
  induction p generalizing old new with
  | nil => rfl
  | cons e rest ih =>
    obtain ⟨admitted, x, below, rfl⟩ := update_cons.mp first
    apply Option.ext
    intro after
    rw [update_place admitted, update_cons, ih below]
    exact (and_iff_right admitted).symm

theorem isSome_update (v w : Value) (p : List Element) (old : Value) :
    (update v p old).isSome = (update w p old).isSome := by
  induction p generalizing old with
  | nil => rfl
  | cons e rest ih =>
    rw [update, update]
    cases (enter e old).refusal? e with
    | some cause => rfl
    | none => rw [Option.isSome_map, Option.isSome_map, ih]

/-- **Reading and writing at one place.** In a tree without fixed arrays, what is found below the
root can be written to where it was found, and the tree stays exactly as it was, fields and items in
their places. If a value can be written to a place, then another one can be written there
afterwards, and the tree is exactly what it would be without the first write. -/
theorem write_lens (tree : Value) (path : Target) (pliant : tree.isPliant = true) :
    (∀ v, tree.resolve path.elements = v → v ≠ .absent →
      (tree.write path v).outcome = .ok tree) ∧
    ∀ v w after, (tree.write path v).outcome = .ok after →
      ∃ final, (after.write path w).outcome = .ok final ∧
        (tree.write path w).outcome = .ok final := by
  refine ⟨?_, ?_⟩
  · rintro v rfl present
    obtain ⟨path, below⟩ := path
    have loose := loose_of_isPliant pliant path.elements
    apply write_ok_iff.mpr
    refine ⟨?_, update_resolve loose present⟩
    cases elements : path.elements with
    | nil => simp [Path.isRoot, elements] at below
    | cons first rest =>
      simp only [Target.elements, elements] at present loose
      have member := select_of_resolve present
      exact ⟨first, rest, rfl, suits_of_refusal? (refusal?_of_select loose.1 member)⟩
  · intro v w after written
    obtain ⟨⟨first, rest, elements, suits⟩, updated⟩ := write_ok_iff.mp written
    have possible : (update w path.path.elements tree).isSome = true := by
      rw [isSome_update w v, updated]
      rfl
    obtain ⟨final, direct⟩ := Option.isSome_iff_exists.mp possible
    have again : update w path.path.elements after = some final := by
      rw [update_update updated, direct]
    have entered : after.suits first = true := by
      rw [elements] at updated
      exact suits_resolve_update (q := []) updated
    exact ⟨final, write_ok_iff.mpr ⟨⟨first, rest, elements, entered⟩, again⟩,
      write_ok_iff.mpr ⟨⟨first, rest, elements, suits⟩, direct⟩⟩

/-- What the first row holds can be written back. A number in the place of the second row gives way
to an object once, whichever value is written below it first. -/
theorem write_lens_row :
    let row : Value := object [("x", int 1)]
    let tree : Value := object [("rows", list [row, int 2]), ("n", null)]
    let after : Value := object [("rows", list [row, object [("y", int 3)]]), ("n", null)]
    let here : Target := ⟨⟨[.field "rows", .index 0, .field "x"], "rows[0].x"⟩, rfl⟩
    let there : Target := ⟨⟨[.field "rows", .index 1, .field "y"], "rows[1].y"⟩, rfl⟩
    tree.isPliant = true ∧ tree.resolve here.elements = int 1 ∧
    (tree.write here (int 1)).outcome = .ok tree ∧
    (tree.write there (int 3)).outcome = .ok after ∧
    ∃ final, (after.write there null).outcome = .ok final ∧
      (tree.write there null).outcome = .ok final := by
  intro row tree after here there
  have pliant : tree.isPliant = true := by decide
  have written : (tree.write there (int 3)).outcome = .ok after := by rfl
  exact ⟨pliant, rfl, (write_lens tree here pliant).1 _ rfl nofun, written,
    (write_lens tree there pliant).2 _ _ _ written⟩

end Value

end Recast
