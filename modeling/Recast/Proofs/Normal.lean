import Mathlib.Data.List.Nodup
import Mathlib.Data.List.Perm.Subperm
import Recast.Proofs.Throughout
import Recast.Value.Key

/-!
Identity keys as a normal form. JSON values always have a key (`key_eq_normal`), and objects have
the same key exactly when their fields are the same up to order (`normalFields_eq_iff`), which two
look-ups settle field by field (`fields_perm_iff`).
-/

namespace Recast

/-! ## Fields with different names -/

namespace Fields

theorem get_of_mem {name : String} {v : Value} {fields : Fields} (distinct : (names fields).Nodup)
    (h : (name, v) ∈ fields) : get name fields = v := by
  induction fields with
  | nil => cases h
  | cons field rest ih =>
    obtain ⟨key, old⟩ := field
    obtain ⟨fresh, distinct⟩ : key ∉ names rest ∧ (names rest).Nodup := by
      simpa [names] using distinct
    rcases List.mem_cons.mp h with same | later
    · cases same
      simp [get]
    · have hne : key ≠ name := by
        rintro rfl
        exact fresh (List.mem_map_of_mem later)
      simpa [get, hne] using ih distinct later

end Fields

namespace Key

theorem insert_perm (name : String) (key : Key) (fields : List (String × Key)) :
    (insert name key fields).Perm ((name, key) :: fields) := by
  induction fields with
  | nil => exact List.Perm.refl _
  | cons field rest ih =>
    obtain ⟨other, old⟩ := field
    unfold insert
    split
    · exact List.Perm.refl _
    · exact (ih.cons _).trans (List.Perm.swap _ _ _)

/-- Fields in an order of their names. -/
def Sorted (fields : List (String × Key)) : Prop := fields.Pairwise fun f g => ¬ g.1 < f.1

theorem insert_sorted (name : String) (key : Key) {fields : List (String × Key)}
    (h : Sorted fields) : Sorted (insert name key fields) := by
  induction fields with
  | nil => simp [insert, Sorted]
  | cons field rest ih =>
    obtain ⟨other, old⟩ := field
    obtain ⟨first, sorted⟩ := List.pairwise_cons.mp h
    unfold insert
    split
    · rename_i before
      refine List.pairwise_cons.mpr ⟨?_, h⟩
      intro g hg
      rcases List.mem_cons.mp hg with rfl | hg
      · exact String.lt_asymm before
      · intro smaller
        exact first g hg (String.lt_trans smaller before)
    · rename_i notBefore
      refine List.pairwise_cons.mpr ⟨?_, ih sorted⟩
      intro g hg
      rcases List.mem_cons.mp ((insert_perm name key rest).mem_iff.mp hg) with rfl | hg
      · exact notBefore
      · exact first g hg

/-- Sorted fields with different names are determined by which fields they are. -/
theorem eq_of_perm {a b : List (String × Key)} (ha : Sorted a) (hb : Sorted b)
    (distinct : (a.map (·.1)).Nodup) (h : a.Perm b) : a = b := by
  refine List.Perm.eq_of_pairwise ?_ ha hb h
  intro f g hf hg notAfter notBefore
  have names : f.1 = g.1 := String.le_antisymm notAfter notBefore
  have hg : g ∈ a := h.mem_iff.mpr hg
  exact List.inj_on_of_nodup_map distinct hf hg names

end Key

namespace Value

/-! ## Keys of JSON values -/

mutual

/-- The identity key as a total function; a foreign value, which has none, counts as absent. -/
def normal : Value → Key
  | .absent | .foreign .. => .absent
  | .null => .null
  | .bool b => .bool b
  | .int n => .int n
  | .double d =>
    match d.toInt? with
    | some n => .int n
    | none => .double d
  | .string s => .string s
  | .array _ items => .array (normalItems items)
  | .object fields => .object (normalFields fields)

def normalItems : List Value → List Key
  | [] => []
  | v :: rest => v.normal :: normalItems rest

def normalFields : List (String × Value) → List (String × Key)
  | [] => []
  | (name, v) :: rest => Key.insert name v.normal (normalFields rest)

end

mutual

theorem key_eq_normal : (v : Value) → v.isJson = true → v.key = .ok v.normal
  | .absent, h | .foreign _ _, h => by cases h
  | .null, _ | .bool _, _ | .int _, _ | .string _, _ => rfl
  | .double d, _ => by
    unfold key normal
    cases d.toInt? <;> rfl
  | .array _ items, h => by
    rw [key, keyItems_eq_normal items (all_array_iff.mp h).2]
    rfl
  | .object fields, h => by
    rw [key, keyFields_eq_normal fields (all_object_iff.mp h).2]
    rfl

theorem keyItems_eq_normal : (items : List Value) → (∀ v ∈ items, v.isJson = true) →
    keyItems items = .ok (normalItems items)
  | [], _ => rfl
  | v :: rest, h => by
    rw [keyItems, key_eq_normal v (h v List.mem_cons_self),
      keyItems_eq_normal rest fun w hw => h w (List.mem_cons_of_mem v hw)]
    rfl

theorem keyFields_eq_normal : (fields : List (String × Value)) →
    (∀ f ∈ fields, f.2.isJson = true) → keyFields fields = .ok (normalFields fields)
  | [], _ => rfl
  | (name, v) :: rest, h => by
    rw [keyFields, key_eq_normal v (h (name, v) List.mem_cons_self),
      keyFields_eq_normal rest fun f hf => h f (List.mem_cons_of_mem _ hf)]
    rfl

end

theorem normalItems_eq_map (items : List Value) : normalItems items = items.map normal := by
  induction items with
  | nil => rfl
  | cons v rest ih => simp [normalItems, ih]

/-- A field with its value's key in place of the value. -/
def normalField (f : String × Value) : String × Key := (f.1, f.2.normal)

theorem normalFields_perm (fields : List (String × Value)) :
    (normalFields fields).Perm (fields.map normalField) := by
  induction fields with
  | nil => exact List.Perm.refl _
  | cons field rest ih =>
    obtain ⟨name, v⟩ := field
    exact (Key.insert_perm name v.normal _).trans (ih.cons _)

theorem normalFields_sorted (fields : List (String × Value)) : Key.Sorted (normalFields fields) := by
  induction fields with
  | nil => exact List.Pairwise.nil
  | cons field rest ih =>
    obtain ⟨name, v⟩ := field
    exact Key.insert_sorted name v.normal ih

theorem names_normalField (fields : Fields) :
    (fields.map normalField).map (·.1) = Fields.names fields := by
  simp [normalField, Fields.names]

/-- The keys of two objects are the same exactly when their fields are, up to order. -/
theorem normalFields_eq_iff {fields others : Fields} (distinct : (Fields.names fields).Nodup) :
    normalFields fields = normalFields others ↔
      (fields.map normalField).Perm (others.map normalField) := by
  constructor
  · intro h
    exact (normalFields_perm fields).symm.trans (h ▸ normalFields_perm others)
  · intro h
    refine Key.eq_of_perm (normalFields_sorted fields) (normalFields_sorted others) ?_
      ((normalFields_perm fields).trans (h.trans (normalFields_perm others).symm))
    rw [((normalFields_perm fields).map _).nodup_iff, names_normalField]
    exact distinct

theorem fields_perm_iff {fields others : Fields} (distinct : (Fields.names fields).Nodup)
    (distinct' : (Fields.names others).Nodup) :
    (fields.map normalField).Perm (others.map normalField) ↔
      fields.length = others.length ∧ (∀ f ∈ fields, Fields.has f.1 others = true) ∧
        ∀ f ∈ fields, f.2.normal = (Fields.get f.1 others).normal := by
  constructor
  · intro h
    have found : ∀ f ∈ fields, ∃ g ∈ others, g.1 = f.1 ∧ g.2.normal = f.2.normal := by
      intro f hf
      have : normalField f ∈ others.map normalField := h.mem_iff.mp (List.mem_map_of_mem hf)
      obtain ⟨g, hg, same⟩ := List.mem_map.mp this
      simp only [normalField, Prod.mk.injEq] at same
      exact ⟨g, hg, same⟩
    refine ⟨by simpa using h.length_eq, ?_, ?_⟩
    · intro f hf
      obtain ⟨g, hg, name, _⟩ := found f hf
      exact Fields.has_iff.mpr (name ▸ List.mem_map_of_mem hg)
    · intro f hf
      obtain ⟨g, hg, name, value⟩ := found f hf
      rw [← name, Fields.get_of_mem distinct' hg, value]
  · rintro ⟨length, has, same⟩
    have nodup : (fields.map normalField).Nodup := by
      apply List.Nodup.of_map (·.1)
      rwa [names_normalField]
    have subset : fields.map normalField ⊆ others.map normalField := by
      intro g hg
      obtain ⟨f, hf, rfl⟩ := List.mem_map.mp hg
      refine List.mem_map.mpr ⟨_, Fields.mem_of_has (has f hf), ?_⟩
      simp [normalField, same f hf]
    apply (List.subperm_of_subset nodup subset).perm_of_length_le
    simp [length]

end Value

end Recast
