import Recast.Proofs.Alike
import Recast.Proofs.LastWrite
import Recast.Proofs.Lens

/-!
Values that differ in the order of their objects' fields at most, at any depth (`Rearranged`). Such
values of JSON are alike (`Rearranged.alike`). Writing does not tell them apart: edits that can be
made of one can be made of the other and leave two such values again (`apply_rearranged`), and so do
the rules of a run (`runRules_rearranged`).
-/

namespace Recast

namespace Fields

theorem has_of_perm {fields others : Fields} (perm : (names fields).Perm (names others))
    (name : String) : has name fields = has name others := by
  rw [Bool.eq_iff_iff, has_iff, has_iff, perm.mem_iff]

theorem names_set_perm {fields others : Fields} (perm : (names fields).Perm (names others))
    (name : String) (v w : Value) :
    (names (set name v fields)).Perm (names (set name w others)) := by
  rw [names_set, names_set, has_of_perm perm]
  split
  · exact perm
  · exact perm.append_right [name]

end Fields

namespace Value

/-- Values that differ in the order of object fields at most: at each position and at each name they
have members that do so. -/
inductive Rearranged : Value → Value → Prop where
  | refl (v : Value) : Rearranged v v
  | array {fixed : Bool} {items others : List Value} (length : items.length = others.length)
      (members : ∀ n, Rearranged (item n items) (item n others)) :
      Rearranged (.array fixed items) (.array fixed others)
  | object {fields others : Fields} (names : (Fields.names fields).Perm (Fields.names others))
      (members : ∀ name, Rearranged (Fields.get name fields) (Fields.get name others)) :
      Rearranged (.object fields) (.object others)

section
variable {a b v w : Value}

theorem Rearranged.exists_object {fields : Fields} (h : Rearranged (.object fields) b) :
    ∃ others, b = .object others ∧ (Fields.names fields).Perm (Fields.names others) ∧
      ∀ name, Rearranged (Fields.get name fields) (Fields.get name others) := by
  cases h with
  | refl => exact ⟨fields, rfl, List.Perm.refl _, fun name => .refl _⟩
  | object names members => exact ⟨_, rfl, names, members⟩

theorem Rearranged.exists_list {items : List Value} (h : Rearranged (list items) b) :
    ∃ others, b = list others ∧ items.length = others.length ∧
      ∀ n, Rearranged (item n items) (item n others) := by
  cases h with
  | refl => exact ⟨items, rfl, rfl, fun n => .refl _⟩
  | array length members => exact ⟨_, rfl, length, members⟩

theorem Rearranged.isObject (h : Rearranged a b) : a.isObject = b.isObject := by
  cases h <;> rfl

/-! ## What the relation means for JSON -/

/-- JSON values without NaN that differ in the order of object fields at most are strictly equal,
and have their fixed arrays at the same places. -/
theorem Rearranged.alike (h : Rearranged a b) (json : a.isJson = true) (free : a.nanFree = true) :
    Alike a b := by
  induction h with
  | refl v => exact Alike.refl json free
  | @array fixed items others length members ih =>
    apply Alike.ofItems
    apply List.forall₂_iff_get.mpr
    refine ⟨length, fun n inside inside' => ?_⟩
    have mem : items[n] ∈ items := List.getElem_mem inside
    have here := ih n
    rw [item_eq_getElem inside, item_eq_getElem inside'] at here
    exact here ((all_array_iff.mp json).2 _ mem) ((all_array_iff.mp free).2 _ mem)
  | @object fields others names members ih =>
    obtain ⟨distinct, inside⟩ := isJson_object_iff.mp json
    apply Alike.ofFields distinct (names.nodup_iff.mp distinct) (Fields.has_of_perm names)
    intro name found
    have mem := Fields.mem_of_has found
    exact ih name (inside _ mem) ((all_object_iff.mp free).2 _ mem)

/-! ## One step of a write -/

theorem Rearranged.suits (h : Rearranged a b) (e : Element) : a.suits e = b.suits e := by
  cases h with
  | refl => rfl
  | array => cases e <;> rfl
  | object => cases e <;> rfl

theorem Rearranged.select (h : Rearranged a b) (e : Element) :
    Rearranged (a.select e) (b.select e) := by
  cases h with
  | refl => exact .refl _
  | array length members =>
    cases e with
    | field name => exact .refl _
    | index n => exact members n
  | object names members =>
    cases e with
    | field name => exact members name
    | index n => exact .refl _

theorem Rearranged.enter (h : Rearranged a b) (e : Element) :
    Rearranged (Value.enter e a) (Value.enter e b) := by
  simp only [Value.enter, h.suits e]
  split
  · exact h
  · exact .refl _

theorem Rearranged.refusal? (h : Rearranged a b) (e : Element) : a.refusal? e = b.refusal? e := by
  cases h with
  | refl => rfl
  | @array fixed items others length members =>
    cases e with
    | field name => rfl
    | index n => cases fixed <;> simp [Value.refusal?, length]
  | object => cases e <;> rfl

theorem Rearranged.place (h : Rearranged a b) (value : Rearranged v w) {e : Element}
    (admitted : a.refusal? e = none) : Rearranged (a.place e v) (b.place e w) := by
  rcases refusal?_eq_none_iff.mp admitted with
    ⟨name, fields, rfl, rfl⟩ | ⟨n, items, rfl, rfl, inside⟩
  · obtain ⟨others, rfl, names, members⟩ := h.exists_object
    refine .object (Fields.names_set_perm names name v w) fun other => ?_
    by_cases same : other = name
    · subst same
      rw [Fields.get_set_self, Fields.get_set_self]
      exact value
    · rw [Fields.get_set_of_ne same, Fields.get_set_of_ne same]
      exact members other
  · obtain ⟨others, rfl, length, members⟩ := h.exists_list
    have inside' : n ≤ others.length := by omega
    refine .array (by rw [length_setItem, length_setItem, length]) fun m => ?_
    by_cases same : m = n
    · subst same
      rw [item_setItem m v items inside, item_setItem m w others inside']
      exact value
    · rw [item_setItem_of_ne same v items inside, item_setItem_of_ne same w others inside']
      exact members m

/-- A write of one value to a place in one tree succeeds if that of the other in the other does. -/
theorem update_rearranged {new : Value} {p : List Element} (value : Rearranged v w)
    (h : Rearranged a b) (updated : update v p a = some new) :
    ∃ other, update w p b = some other ∧ Rearranged new other := by
  induction p generalizing a b new with
  | nil =>
    cases updated
    exact ⟨w, rfl, value⟩
  | cons e rest ih =>
    obtain ⟨admitted, x, below, rfl⟩ := update_cons.mp updated
    have entered := h.enter e
    obtain ⟨y, below', inner⟩ := ih (entered.select e) below
    refine ⟨_, update_cons.mpr ⟨?_, y, below', rfl⟩, entered.place inner admitted⟩
    rw [← entered.refusal? e, admitted]

end

end Value

open Value (Rearranged)

/-! ## Runs -/

/-- Edits at one place, of values that differ in the order of object fields at most. -/
def Edit.Rearranged (e f : Edit) : Prop := e.path = f.path ∧ Value.Rearranged e.value f.value

theorem Edit.Rearranged.refl (e : Edit) : e.Rearranged e := ⟨rfl, .refl e.value⟩

section
variable {a b after : Value}

/-- An edit that can be made of one of two outputs can be made of the other. -/
theorem apply_rearranged {e f : Edit} (edit : e.Rearranged f) (h : Rearranged a b)
    (made : e.apply a = .ok after) :
    ∃ other, f.apply b = .ok other ∧ Rearranged after other := by
  obtain ⟨path, value⟩ := edit
  obtain ⟨⟨first, rest, elements, suits⟩, updated⟩ := Value.write_ok_iff.mp made
  obtain ⟨other, updated', related⟩ := Value.update_rearranged value h updated
  rw [path] at elements updated'
  rw [h.suits first] at suits
  exact ⟨other, Value.write_ok_iff.mpr ⟨⟨first, rest, elements, suits⟩, updated'⟩, related⟩

theorem applyAll_rearranged {es fs : List Edit} (edits : List.Forall₂ Edit.Rearranged es fs)
    (h : Rearranged a b) (made : Edit.applyAll a es = .ok after) :
    ∃ other, Edit.applyAll b fs = .ok other ∧ Rearranged after other := by
  induction edits generalizing a b with
  | nil =>
    cases made
    exact ⟨b, rfl, h⟩
  | cons edit _ ih =>
    rw [Edit.applyAll_cons] at made
    obtain ⟨next, first, later⟩ := bind_eq_ok.mp made
    obtain ⟨next', first', related⟩ := apply_rearranged edit h first
    obtain ⟨other, later', related⟩ := ih related later
    refine ⟨other, ?_, related⟩
    rw [Edit.applyAll_cons]
    exact bind_eq_ok.mpr ⟨next', first', later'⟩

/-- Rules that run on top of one of two outputs run on top of the other, whatever their indexes. -/
theorem runRules_rearranged {rules : List Rule} {source : Value} {index : Nat} (index' : Nat)
    (object : a.isObject = true) (h : Rearranged a b)
    (ran : Transform.runRules rules index source a = .ok after) :
    ∃ other, Transform.runRules rules index' source b = .ok other ∧ Rearranged after other := by
  obtain ⟨edits, all, made⟩ := (runRules_ok_iff object).mp ran
  have same : List.Forall₂ Edit.Rearranged edits.flatten edits.flatten :=
    List.forall₂_same.mpr fun e _ => .refl e
  obtain ⟨other, made', related⟩ := applyAll_rearranged same h made
  exact ⟨other, (runRules_ok_iff (h.isObject ▸ object)).mpr ⟨edits, all, made'⟩, related⟩

end

end Recast
