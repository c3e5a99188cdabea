import Recast.Lookup
import Recast.Write

/-!
Tests that hold throughout a value: of the value itself and of everything inside it. Three such
properties matter: being JSON, having no NaN, and having no fixed array. Main statement: whatever
holds throughout a value holds throughout every part of it that a path finds (`resolve_all`).
-/

namespace Recast

theorem Fields.mem_of_has {name : String} {fields : Fields} (h : Fields.has name fields = true) :
    (name, Fields.get name fields) ∈ fields := by
  induction fields with
  | nil => simp [Fields.has] at h
  | cons field rest ih =>
    obtain ⟨key, old⟩ := field
    by_cases hk : key = name
    · simp [Fields.get, hk]
    · have hr : Fields.has name rest = true := by simpa [Fields.has, hk] using h
      simp [Fields.get, hk, ih hr]

theorem Fields.has_iff {name : String} {fields : Fields} :
    Fields.has name fields = true ↔ name ∈ Fields.names fields := by
  simp [Fields.has, Fields.names]

theorem Fields.get_of_not_has {name : String} {fields : Fields}
    (h : Fields.has name fields = false) : Fields.get name fields = .absent := by
  induction fields with
  | nil => rfl
  | cons field rest ih =>
    obtain ⟨key, old⟩ := field
    have hk : key ≠ name ∧ Fields.has name rest = false := by simpa [Fields.has] using h
    simp [Fields.get, hk.1, ih hk.2]

theorem Fields.set_of_not_mem {name : String} {fields : Fields} (fresh : name ∉ names fields)
    (v : Value) : set name v fields = fields ++ [(name, v)] := by
  induction fields with
  | nil => rfl
  | cons field rest ih =>
    obtain ⟨key, old⟩ := field
    obtain ⟨differ, later⟩ := not_or.mp (mt List.mem_cons.mpr fresh)
    rw [Fields.set, if_neg (Ne.symm differ), ih later, List.cons_append]

/-- Fields with different names are set in their order. -/
theorem Fields.setAll_of_nodup {before fields : Fields} (nodup : (names (before ++ fields)).Nodup) :
    setAll before fields = before ++ fields := by
  induction fields generalizing before with
  | nil => simp [Fields.setAll]
  | cons field rest ih =>
    obtain ⟨name, v⟩ := field
    have fresh : name ∉ Fields.names before := by
      intro mem
      simp only [Fields.names, List.map_append, List.map_cons] at nodup mem
      exact (List.nodup_append.mp nodup).2.2 name mem name List.mem_cons_self rfl
    have step : Fields.setAll before ((name, v) :: rest) =
        Fields.setAll (before ++ [(name, v)]) rest := by
      rw [← set_of_not_mem fresh]
      rfl
    rw [step, ih (by simpa using nodup)]
    simp

namespace Value

theorem isObject_iff {v : Value} : v.isObject = true ↔ ∃ fields, v = .object fields := by
  cases v <;> simp [isObject]

theorem select_field_of_isObject {v : Value} (h : v.isObject = false) (name : String) :
    v.select (.field name) = .absent := by
  cases v <;> first | rfl | cases h

theorem item_eq_getElem? (n : Nat) (items : List Value) :
    item n items = items[n]?.getD .absent := by
  induction items generalizing n with
  | nil => simp [item]
  | cons v rest ih =>
    cases n with
    | zero => simp [item]
    | succ n => simpa [item] using ih n

theorem item_eq_getElem {n : Nat} {items : List Value} (inside : n < items.length) :
    item n items = items[n] := by
  rw [item_eq_getElem?, List.getElem?_eq_getElem inside]
  rfl

theorem lt_length_of_item (n : Nat) (items : List Value) (h : item n items ≠ .absent) :
    n < items.length := by
  induction items generalizing n with
  | nil => exact absurd rfl h
  | cons v rest ih =>
    cases n with
    | zero => simp
    | succ n => simpa using ih n (by simpa [item] using h)

theorem item_mem {n : Nat} {items : List Value} (inside : n < items.length) :
    item n items ∈ items := by
  rw [item_eq_getElem inside]
  exact List.getElem_mem inside

/-- Induction over a value: what holds of an array's items and of an object's fields holds of the
array and of the object. -/
@[elab_as_elim]
theorem nested_induction {motive : Value → Prop} (absent : motive .absent) (null : motive .null)
    (bool : ∀ b, motive (.bool b)) (int : ∀ n, motive (.int n)) (double : ∀ d, motive (.double d))
    (string : ∀ s, motive (.string s)) (foreign : ∀ name text, motive (.foreign name text))
    (array : ∀ fixed items, (∀ v ∈ items, motive v) → motive (.array fixed items))
    (object : ∀ fields : Fields, (∀ f ∈ fields, motive f.2) → motive (.object fields))
    (v : Value) : motive v := by
  refine @Value.rec motive (fun items => ∀ v ∈ items, motive v)
    (fun fields => ∀ f ∈ fields, motive f.2) (fun f => motive f.2) absent null bool int double
    string array object foreign ?_ ?_ ?_ ?_ ?_ v
  · exact fun _ mem => absurd mem List.not_mem_nil
  · intro w rest first later
    exact List.forall_mem_cons.mpr ⟨first, later⟩
  · exact fun _ mem => absurd mem List.not_mem_nil
  · intro f rest first later
    exact List.forall_mem_cons.mpr ⟨first, later⟩
  · exact fun name w member => member

/-- Whether a value is not one of those that JSON lacks, its members left out; the fields of an
object have different names. -/
def isProper : Value → Bool
  | .absent | .foreign .. => false
  | .object fields => (Fields.names fields).Nodup
  | _ => true

/-- Whether a value is JSON: nothing absent or foreign occurs in it, and the names of each object's
fields differ. -/
def isJson (v : Value) : Bool := v.all isProper

def isNan : Value → Bool
  | .double .nan => true
  | _ => false

/-- Whether no NaN occurs in a value. -/
def nanFree (v : Value) : Bool := v.all fun v => !v.isNan

def isFixed : Value → Bool
  | .array fixed _ => fixed
  | _ => false

/-- Whether every array in a value can be written into. -/
def isPliant (v : Value) : Bool := v.all fun v => !v.isFixed

mutual

/-- A value with an array that can be written into for each that cannot. -/
def pliant : Value → Value
  | .array _ items => .list (pliantItems items)
  | .object fields => .object (pliantFields fields)
  | v => v

def pliantItems : List Value → List Value
  | [] => []
  | v :: rest => v.pliant :: pliantItems rest

def pliantFields : List (String × Value) → List (String × Value)
  | [] => []
  | (name, v) :: rest => (name, v.pliant) :: pliantFields rest

end

theorem names_pliantFields (fields : Fields) :
    Fields.names (pliantFields fields) = Fields.names fields := by
  induction fields with
  | nil => rfl
  | cons field rest ih =>
    obtain ⟨name, v⟩ := field
    simp only [Fields.names] at ih
    simp [Fields.names, pliantFields, ih]

section
variable {test : Value → Bool}

theorem allItems_iff {items : List Value} :
    allItems test items = true ↔ ∀ v ∈ items, v.all test = true := by
  induction items with
  | nil => simp [allItems]
  | cons v rest ih => simp [allItems, ih]

theorem allFields_iff {fields : List (String × Value)} :
    allFields test fields = true ↔ ∀ f ∈ fields, f.2.all test = true := by
  induction fields with
  | nil => simp [allFields]
  | cons field rest ih =>
    obtain ⟨name, v⟩ := field
    simp [allFields, ih]

theorem all_array_iff {fixed : Bool} {items : List Value} :
    (array fixed items).all test = true ↔
      test (.array fixed items) = true ∧ ∀ v ∈ items, v.all test = true := by
  simp [all, allItems_iff]

theorem all_object_iff {fields : Fields} :
    (object fields).all test = true ↔
      test (.object fields) = true ∧ ∀ f ∈ fields, f.2.all test = true := by
  simp [all, allFields_iff]

theorem test_of_all {v : Value} (h : v.all test = true) : test v = true := by
  cases v with
  | array fixed items => exact (all_array_iff.mp h).1
  | object fields => exact (all_object_iff.mp h).1
  | _ => exact h

/-- What follows from a test holds throughout a value if the test does. -/
theorem all_imp {other : Value → Bool} (weaker : ∀ v, test v = true → other v = true) {v : Value}
    (h : v.all test = true) : v.all other = true := by
  induction v using nested_induction with
  | array fixed items ih =>
    obtain ⟨whole, inside⟩ := all_array_iff.mp h
    exact all_array_iff.mpr ⟨weaker _ whole, fun w mem => ih w mem (inside w mem)⟩
  | object fields ih =>
    obtain ⟨whole, inside⟩ := all_object_iff.mp h
    exact all_object_iff.mpr ⟨weaker _ whole, fun f mem => ih f mem (inside f mem)⟩
  | _ => exact weaker _ h

/-- Tests that hold throughout a value hold together. -/
theorem all_and {other : Value → Bool} {v : Value} (h : v.all test = true)
    (h' : v.all other = true) : v.all (fun w => test w && other w) = true := by
  induction v using nested_induction with
  | array fixed items ih =>
    obtain ⟨whole, inside⟩ := all_array_iff.mp h
    obtain ⟨whole', inside'⟩ := all_array_iff.mp h'
    refine all_array_iff.mpr ⟨by rw [whole, whole', Bool.and_true], fun w mem => ?_⟩
    exact ih w mem (inside w mem) (inside' w mem)
  | object fields ih =>
    obtain ⟨whole, inside⟩ := all_object_iff.mp h
    obtain ⟨whole', inside'⟩ := all_object_iff.mp h'
    refine all_object_iff.mpr ⟨by rw [whole, whole', Bool.and_true], fun f mem => ?_⟩
    exact ih f mem (inside f mem) (inside' f mem)
  | _ => exact Bool.and_eq_true_iff.mpr ⟨h, h'⟩

theorem item_all {items : List Value} (h : ∀ v ∈ items, v.all test = true) (n : Nat) :
    item n items = .absent ∨ (item n items).all test = true := by
  rw [item_eq_getElem?]
  cases hn : items[n]? with
  | none => exact Or.inl rfl
  | some v => exact Or.inr (h v (List.mem_of_getElem? hn))

theorem get_all {fields : Fields} (h : ∀ f ∈ fields, f.2.all test = true) (name : String) :
    Fields.get name fields = .absent ∨ (Fields.get name fields).all test = true := by
  cases hn : Fields.has name fields with
  | false => exact Or.inl (Fields.get_of_not_has hn)
  | true => exact Or.inr (h _ (Fields.mem_of_has hn))

theorem select_all {v : Value} (h : v.all test = true) (e : Element) :
    v.select e = .absent ∨ (v.select e).all test = true := by
  cases e with
  | field name =>
    cases v with
    | object fields => exact get_all (all_object_iff.mp h).2 name
    | _ => exact Or.inl rfl
  | index n =>
    cases v with
    | array fixed items => exact item_all (all_array_iff.mp h).2 n
    | _ => exact Or.inl rfl

/-- What a path finds in a value has the properties that hold throughout the value. -/
theorem resolve_all {v : Value} (h : v.all test = true) (p : List Element) :
    v.resolve p = .absent ∨ (v.resolve p).all test = true := by
  induction p generalizing v with
  | nil => exact Or.inr h
  | cons e rest ih =>
    rcases select_all h e with absent | found
    · exact Or.inl (by simp [resolve, absent])
    · exact ih found

end

/-! ## Parts of JSON -/

/-- Whether a lookup in JSON can find a value: it is JSON, or absent. -/
def isPart (v : Value) : Bool := v.isAbsent || v.isJson

theorem isPart_iff {v : Value} : v.isPart = true ↔ v = .absent ∨ v.isJson = true := by
  cases v <;> simp [isPart, isAbsent]

theorem isPart_select {v : Value} (json : v.isJson = true) (e : Element) :
    (v.select e).isPart = true := isPart_iff.mpr (select_all json e)

theorem isPart_resolve {v : Value} (json : v.isJson = true) (p : List Element) :
    (v.resolve p).isPart = true := isPart_iff.mpr (resolve_all json p)

theorem isPart_resolve_part {v : Value} (part : v.isPart = true) (p : List Element) :
    (v.resolve p).isPart = true := by
  rcases isPart_iff.mp part with rfl | json
  · rw [resolve_absent]
    rfl
  · exact isPart_resolve json p

theorem isPart_of_isJson {v : Value} (json : v.isJson = true) : v.isPart = true :=
  isPart_iff.mpr (Or.inr json)

theorem isJson_of_isPart {v : Value} (part : v.isPart = true) (present : v.isAbsent = false) :
    v.isJson = true := by
  rcases isPart_iff.mp part with rfl | json
  · cases present
  · exact json

end Value

end Recast
