import Mathlib.Data.List.Forall2
import Recast.Proofs.Identity
import Recast.Proofs.Preservation

/-!
Values that differ in spelling at most: in the order of their objects' fields, and in integers that
one of them has as doubles. Such values are told apart by nothing but their names for types, so what
is looked up in them is alike again (`Alike.select`), and so is what is built alike from parts that
are alike (`Alike.ofItems`, `Alike.ofFields`).
-/

namespace Recast

/-- The kind of the values that have a key. -/
def Key.kind : Key → Kind
  | .absent => .absent
  | .null => .null
  | .bool _ => .boolean
  | .int _ | .double _ => .number
  | .string _ => .string
  | .array _ => .array
  | .object _ => .object

namespace Value

theorem kind?_eq_normal {v : Value} (part : v.isPart = true) : v.kind? = some v.normal.kind := by
  cases v with
  | foreign => cases part
  | double d =>
    simp only [kind?, normal]
    cases d.toInt? <;> rfl
  | _ => rfl

theorem isAbsent_iff_kind {v : Value} : v.isAbsent = true ↔ v.kind? = some .absent := by
  cases v <;> simp [isAbsent, kind?]

theorem isNull_iff_kind {v : Value} : v.isNull = true ↔ v.kind? = some .null := by
  cases v <;> simp [isNull, kind?]

theorem isObject_iff_kind {v : Value} : v.isObject = true ↔ v.kind? = some .object := by
  cases v <;> simp [isObject, kind?]

/-- Two JSON values without NaN differ in spelling at most: they are strictly equal, and where one
has a fixed array, so has the other. -/
structure Alike (a b : Value) : Prop where
  json : a.isJson = true
  json' : b.isJson = true
  free : a.nanFree = true
  free' : b.nanFree = true
  equal : strictEq a b = .ok true
  fixed : ∀ p, (a.resolve p).isFixed = (b.resolve p).isFixed

/-- What a lookup finds in two values that are alike: nothing, or values that are alike. -/
def PartsAlike (a b : Value) : Prop := (a = .absent ∧ b = .absent) ∨ Alike a b

namespace Alike

variable {a b c : Value}

theorem normal (h : Alike a b) : a.normal = b.normal := by
  have equal := h.equal
  rw [strictEq_eq a b h.json h.json'] at equal
  have both : a.normal = b.normal ∧ a.nanFree = true := by simpa using equal
  exact both.1

theorem of_normal (json : a.isJson = true) (json' : b.isJson = true) (free : a.nanFree = true)
    (free' : b.nanFree = true) (same : a.normal = b.normal)
    (fixed : ∀ p, (a.resolve p).isFixed = (b.resolve p).isFixed) : Alike a b := by
  refine ⟨json, json', free, free', ?_, fixed⟩
  rw [strictEq_eq a b json json', decide_eq_true ⟨same, free⟩]

/-- Values that are strictly equal are alike where neither has a fixed array, as is so of values
that were read from texts. -/
theorem of_isPliant (json : a.isJson = true) (json' : b.isJson = true) (free : a.nanFree = true)
    (free' : b.nanFree = true) (equal : strictEq a b = .ok true) (pliant : a.isPliant = true)
    (pliant' : b.isPliant = true) : Alike a b := by
  have loose : ∀ {v : Value}, v.isPliant = true → ∀ p, (v.resolve p).isFixed = false := by
    intro v pliant p
    rcases resolve_all pliant p with absent | found
    · rw [absent]
      rfl
    · simpa using test_of_all found
  exact ⟨json, json', free, free', equal, fun p => by rw [loose pliant, loose pliant']⟩

theorem refl (json : a.isJson = true) (free : a.nanFree = true) : Alike a a :=
  of_normal json json free free rfl fun _ => rfl

theorem symm (h : Alike a b) : Alike b a :=
  of_normal h.json' h.json h.free' h.free h.normal.symm fun p => (h.fixed p).symm

/-! ## Kinds -/

theorem kind (h : Alike a b) : a.kind? = b.kind? := by
  rw [kind?_eq_normal (isPart_of_isJson h.json),
    kind?_eq_normal (isPart_of_isJson h.json'), h.normal]

theorem present (h : Alike a b) : a.isAbsent = false := by
  cases a with
  | absent => cases h.json
  | _ => rfl

theorem exists_object {fields : Fields} (h : Alike (object fields) b) :
    ∃ others, b = .object others :=
  isObject_iff.mp (isObject_iff_kind.mpr h.kind.symm)

theorem eq_string {s : String} (h : Alike (string s) b) : b = string s := by
  have kind := h.kind
  cases b with
  | string t =>
    have same := h.normal
    simp only [Value.normal, Key.string.injEq] at same
    rw [same]
  | _ => cases kind

end Alike

/-! ## What is found -/

namespace PartsAlike

variable {a b : Value}

theorem absent : PartsAlike .absent .absent := Or.inl ⟨rfl, rfl⟩

theorem kind (h : PartsAlike a b) : a.kind? = b.kind? := by
  rcases h with ⟨rfl, rfl⟩ | alike
  · rfl
  · exact alike.kind

theorem fixed (h : PartsAlike a b) (p : List Element) :
    (a.resolve p).isFixed = (b.resolve p).isFixed := by
  rcases h with ⟨rfl, rfl⟩ | alike
  · rfl
  · exact alike.fixed p

theorem alike (h : PartsAlike a b) (present : a.isAbsent = false) : Alike a b := by
  rcases h with ⟨rfl, rfl⟩ | alike
  · cases present
  · exact alike

theorem isAbsent (h : PartsAlike a b) : a.isAbsent = b.isAbsent := by
  rw [Bool.eq_iff_iff, isAbsent_iff_kind, isAbsent_iff_kind, h.kind]

theorem isNull (h : PartsAlike a b) : a.isNull = b.isNull := by
  rw [Bool.eq_iff_iff, isNull_iff_kind, isNull_iff_kind, h.kind]

end PartsAlike

/-! ## Arrays -/

section
variable {fixed : Bool} {items others : List Value}

theorem partsAlike_item (members : List.Forall₂ Alike items others) (n : Nat) :
    PartsAlike (item n items) (item n others) := by
  induction members generalizing n with
  | nil => exact PartsAlike.absent
  | cons first _ ih =>
    cases n with
    | zero => exact Or.inr first
    | succ n => simpa [item] using ih n

/-- Arrays of alike items are alike. -/
theorem Alike.ofItems (members : List.Forall₂ Alike items others) :
    Alike (array fixed items) (array fixed others) := by
  have keys : items.map Value.normal = others.map Value.normal := by
    induction members with
    | nil => rfl
    | cons first _ ih => rw [List.map_cons, List.map_cons, first.normal, ih]
  have left : ∀ v ∈ items, v.isJson = true ∧ v.nanFree = true :=
    ((List.forall₂_and_left items others).mp
      (members.imp fun _ _ h => ⟨⟨h.json, h.free⟩, h⟩)).1
  have right : ∀ v ∈ others, v.isJson = true ∧ v.nanFree = true :=
    ((List.forall₂_and_left others items).mp
      (members.flip.imp fun _ _ h => ⟨⟨h.json', h.free'⟩, h⟩)).1
  apply Alike.of_normal
  · exact all_array_iff.mpr ⟨rfl, fun v mem => (left v mem).1⟩
  · exact all_array_iff.mpr ⟨rfl, fun v mem => (right v mem).1⟩
  · exact nanFree_array.mpr fun v mem => (left v mem).2
  · exact nanFree_array.mpr fun v mem => (right v mem).2
  · simp only [Value.normal, normalItems_eq_map, keys]
  · intro p
    cases p with
    | nil => rfl
    | cons e rest =>
      cases e with
      | field name => rfl
      | index n => exact (partsAlike_item members n).fixed rest

theorem Alike.exists_array {b : Value} (h : Alike (array fixed items) b) :
    ∃ others, b = .array fixed others ∧ List.Forall₂ Alike items others := by
  have kind := h.kind
  cases b with
  | array f others =>
    obtain rfl : fixed = f := h.fixed []
    refine ⟨others, rfl, ?_⟩
    have keys : items.map Value.normal = others.map Value.normal := by
      have same := h.normal
      simpa only [Value.normal, normalItems_eq_map, Key.array.injEq] using same
    have json := (all_array_iff.mp h.json).2
    have json' := (all_array_iff.mp h.json').2
    have free := nanFree_array.mp h.free
    have free' := nanFree_array.mp h.free'
    rw [List.forall₂_iff_get]
    refine ⟨by simpa using congrArg List.length keys, ?_⟩
    intro n inside inside'
    have found : items[n]? = some items[n] := List.getElem?_eq_getElem inside
    apply Alike.of_normal
    · exact json _ (List.getElem_mem _)
    · exact json' _ (List.getElem_mem _)
    · exact free _ (List.getElem_mem _)
    · exact free' _ (List.getElem_mem _)
    · have same := congrArg (fun keys => keys[n]?) keys
      simpa [inside, inside'] using same
    · intro p
      have fixed := h.fixed (.index n :: p)
      simpa [resolve, select, item_eq_getElem?, inside, inside'] using fixed
  | _ => cases kind

end

/-! ## Objects -/

section
variable {fields others : Fields}

theorem Alike.has (h : Alike (object fields) (object others)) (name : String) :
    Fields.has name fields = Fields.has name others := by
  have keys := h.normal
  simp only [Value.normal, Key.object.injEq] at keys
  have perm := (normalFields_eq_iff (isJson_object_iff.mp h.json).1).mp keys
  have names := (perm.map (·.1)).mem_iff (a := name)
  rw [names_normalField, names_normalField] at names
  rw [Bool.eq_iff_iff, Fields.has_iff, Fields.has_iff, names]

/-- Fields of one name in objects that are alike. -/
theorem Alike.get (h : Alike (object fields) (object others)) {name : String}
    (has : Fields.has name fields = true) :
    Alike (Fields.get name fields) (Fields.get name others) := by
  obtain ⟨distinct, json⟩ := isJson_object_iff.mp h.json
  obtain ⟨distinct', json'⟩ := isJson_object_iff.mp h.json'
  have mem := Fields.mem_of_has has
  have mem' := Fields.mem_of_has (h.has name ▸ has)
  have keys := h.normal
  simp only [Value.normal, Key.object.injEq] at keys
  have perm := (normalFields_eq_iff distinct).mp keys
  have same := ((fields_perm_iff distinct distinct').mp perm).2.2 _ mem
  exact Alike.of_normal (json _ mem) (json' _ mem') (nanFree_object.mp h.free _ mem)
    (nanFree_object.mp h.free' _ mem') same fun p => h.fixed (.field name :: p)

theorem Alike.partsAlike_get (h : Alike (object fields) (object others)) (name : String) :
    PartsAlike (Fields.get name fields) (Fields.get name others) := by
  cases found : Fields.has name fields with
  | true => exact Or.inr (h.get found)
  | false =>
    refine Or.inl ⟨Fields.get_of_not_has found, Fields.get_of_not_has ?_⟩
    rw [← h.has, found]

/-- Objects with alike fields of the same names are alike. -/
theorem Alike.ofFields (distinct : (Fields.names fields).Nodup)
    (distinct' : (Fields.names others).Nodup)
    (has : ∀ name, Fields.has name fields = Fields.has name others)
    (members : ∀ name, Fields.has name fields = true →
      Alike (Fields.get name fields) (Fields.get name others)) :
    Alike (object fields) (object others) := by
  have member : ∀ f ∈ fields, Fields.has f.1 fields = true ∧ Fields.get f.1 fields = f.2 :=
    fun f mem => ⟨Fields.has_iff.mpr (List.mem_map_of_mem mem), Fields.get_of_mem distinct mem⟩
  have member' : ∀ f ∈ others, Fields.has f.1 fields = true ∧ Fields.get f.1 others = f.2 := by
    intro f mem
    have found : Fields.has f.1 others = true := Fields.has_iff.mpr (List.mem_map_of_mem mem)
    exact ⟨by rw [has, found], Fields.get_of_mem distinct' mem⟩
  have left : ∀ f ∈ fields, f.2.isJson = true ∧ f.2.nanFree = true := by
    intro f mem
    obtain ⟨found, value⟩ := member f mem
    rw [← value]
    exact ⟨(members _ found).json, (members _ found).free⟩
  have right : ∀ f ∈ others, f.2.isJson = true ∧ f.2.nanFree = true := by
    intro f mem
    obtain ⟨found, value⟩ := member' f mem
    rw [← value]
    exact ⟨(members _ found).json', (members _ found).free'⟩
  have names : (Fields.names fields).Perm (Fields.names others) := by
    rw [List.perm_ext_iff_of_nodup distinct distinct']
    intro name
    rw [← Fields.has_iff, ← Fields.has_iff, has]
  apply Alike.of_normal
  · exact isJson_object_iff.mpr ⟨distinct, fun f mem => (left f mem).1⟩
  · exact isJson_object_iff.mpr ⟨distinct', fun f mem => (right f mem).1⟩
  · exact nanFree_object.mpr fun f mem => (left f mem).2
  · exact nanFree_object.mpr fun f mem => (right f mem).2
  · simp only [Value.normal, Key.object.injEq]
    rw [normalFields_eq_iff distinct, fields_perm_iff distinct distinct']
    refine ⟨by simpa [Fields.names] using names.length_eq, ?_, ?_⟩
    · intro f mem
      rw [← has]
      exact (member f mem).1
    · intro f mem
      obtain ⟨found, value⟩ := member f mem
      have same := (members _ found).normal
      rwa [value] at same
  · intro p
    cases p with
    | nil => rfl
    | cons e rest =>
      cases e with
      | index n => rfl
      | field name =>
        cases found : Fields.has name fields with
        | true => exact (members name found).fixed rest
        | false =>
          have lacks : Fields.has name others = false := by rw [← has, found]
          simp [resolve, select, Fields.get_of_not_has found, Fields.get_of_not_has lacks]

end

/-! ## Paths -/

section
variable {a b : Value}

/-- What an accessor selects in values that are alike is alike. -/
theorem Alike.select (h : Alike a b) (e : Element) : PartsAlike (a.select e) (b.select e) := by
  have kind := h.kind
  cases a with
  | object fields =>
    obtain ⟨others, rfl⟩ := h.exists_object
    cases e with
    | field name => exact h.partsAlike_get name
    | index n => exact PartsAlike.absent
  | array fixed items =>
    obtain ⟨others, rfl, members⟩ := h.exists_array
    cases e with
    | field name => exact PartsAlike.absent
    | index n => exact partsAlike_item members n
  | absent | foreign => cases h.json
  | null | bool | int | double | string =>
    have scalar : b.select e = .absent := by cases e <;> cases b <;> first | rfl | cases kind
    rw [scalar]
    cases e <;> exact PartsAlike.absent

/-- What a path finds in values that are alike is alike. -/
theorem PartsAlike.resolve (h : PartsAlike a b) (p : List Element) :
    PartsAlike (a.resolve p) (b.resolve p) := by
  induction p generalizing a b with
  | nil => exact h
  | cons e rest ih =>
    apply ih
    rcases h with ⟨rfl, rfl⟩ | alike
    · rw [select_absent]
      exact PartsAlike.absent
    · exact alike.select e

end

end Value

end Recast
