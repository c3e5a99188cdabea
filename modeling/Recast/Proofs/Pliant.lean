import Recast.Proofs.Throughout
import Recast.Translate

/-!
Fixed arrays make no difference to merging. With a list in the place of each fixed array in a base
and in an override, the merge is what it was, with a list in the place of each fixed array in it
(`merge_pliant`).
-/

namespace Recast

namespace Value

theorem has_pliantFields (name : String) (fields : Fields) :
    Fields.has name (pliantFields fields) = Fields.has name fields := by
  rw [Bool.eq_iff_iff, Fields.has_iff, Fields.has_iff, names_pliantFields]

theorem get_pliantFields (name : String) (fields : Fields) :
    Fields.get name (pliantFields fields) = (Fields.get name fields).pliant := by
  induction fields with
  | nil => rfl
  | cons field rest ih =>
    obtain ⟨key, v⟩ := field
    by_cases same : key = name
    · simp [pliantFields, Fields.get, same]
    · simp [pliantFields, Fields.get, same, ih]

theorem pliantFields_eq_map (fields : List (String × Value)) :
    pliantFields fields = fields.map fun f => (f.1, f.2.pliant) := by
  induction fields with
  | nil => rfl
  | cons field rest ih =>
    obtain ⟨name, v⟩ := field
    simp [pliantFields, ih]

theorem pliantFields_append (fields more : Fields) :
    pliantFields (fields ++ more) = pliantFields fields ++ pliantFields more := by
  simp [pliantFields_eq_map]

theorem pliantFields_filter (keep : String → Bool) (fields : Fields) :
    ((pliantFields fields).filter fun f => keep f.1) =
      pliantFields (fields.filter fun f => keep f.1) := by
  induction fields with
  | nil => rfl
  | cons field rest ih =>
    obtain ⟨name, v⟩ := field
    cases kept : keep name <;> simp [pliantFields, kept, ih]

theorem pliantItems_eq_map (items : List Value) : pliantItems items = items.map pliant := by
  induction items with
  | nil => rfl
  | cons v rest ih => simp [pliantItems, ih]

theorem pliantItems_append (items more : List Value) :
    pliantItems (items ++ more) = pliantItems items ++ pliantItems more := by
  simp [pliantItems_eq_map]

theorem item_pliantItems (n : Nat) (items : List Value) :
    item n (pliantItems items) = (item n items).pliant := by
  rw [item_eq_getElem?, item_eq_getElem?, pliantItems_eq_map, List.getElem?_map]
  cases items[n]? <;> rfl

mutual

theorem key_pliant : (v : Value) → v.pliant.key = v.key
  | .array fixed items => by
    rw [pliant, list, key, key, keyItems_pliant items]
  | .object fields => by
    rw [pliant, key, key, keyFields_pliant fields]
  | .absent | .null | .bool _ | .int _ | .double _ | .string _ | .foreign .. => rfl

theorem keyItems_pliant : (items : List Value) → keyItems (pliantItems items) = keyItems items
  | [] => rfl
  | v :: rest => by
    rw [pliantItems, keyItems, keyItems, key_pliant v, keyItems_pliant rest]

theorem keyFields_pliant : (fields : List (String × Value)) →
    keyFields (pliantFields fields) = keyFields fields
  | [] => rfl
  | (name, v) :: rest => by
    rw [pliantFields, keyFields, keyFields, key_pliant v, keyFields_pliant rest]

end

end Value

namespace Translate

open Value

theorem idOf?_pliant (idField : String) (v : Value) :
    idOf? idField v.pliant = (idOf? idField v).map pliant := by
  cases v with
  | object fields =>
    simp only [pliant, idOf?, has_pliantFields, get_pliantFields]
    cases Fields.has idField fields <;> rfl
  | _ => rfl

theorem idIndex_pliant (idField : String) (position : Nat) (others : List Value) :
    idIndex idField position (pliantItems others) = idIndex idField position others := by
  induction others generalizing position with
  | nil => rfl
  | cons v rest ih =>
    rw [pliantItems, idIndex, idIndex, idOf?_pliant, ih]
    cases idOf? idField v with
    | none => rfl
    | some id =>
      simp only [Option.map_some, key_pliant]

theorem unmatched_pliant (matched : List Nat) (position : Nat) (others : List Value) :
    unmatched matched position (pliantItems others) =
      pliantItems (unmatched matched position others) := by
  induction others generalizing position with
  | nil => rfl
  | cons v rest ih =>
    rw [pliantItems, unmatched, unmatched, ih]
    split <;> rfl

mutual

/-- **Merging without fixed arrays.** -/
theorem merge_pliant (locations : Locations) : (base : Value) → ∀ (here : Location)
    (override : Value), merge locations here base.pliant override.pliant =
      (merge locations here base override).map pliant
  | .object fields, here, override => by
    cases override with
    | object others =>
      simp only [pliant, merge, mergeFields_pliant locations fields here others]
      cases mergeFields locations here fields others with
      | error f => rfl
      | ok merged =>
        simp only [Except.map, ok_bind, pure_eq, has_pliantFields, pliant, pliantFields_append,
          pliantFields_filter fun name => !Fields.has name fields]
    | _ => rw [merge, merge] <;> simp [pliant, list, Except.map]
  | .array fixed items, here, override => by
    cases override with
    | array fixed' others =>
      simp only [pliant, list, merge]
      cases locations.idField? here with
      | none => rfl
      | some idField =>
        simp only [idIndex_pliant]
        cases idIndex idField 0 others with
        | error f => rfl
        | ok index =>
          simp only [ok_bind, mergeItems_pliant locations items here idField index others []]
          cases mergeItems locations here idField index others [] items with
          | error f => rfl
          | ok merged =>
            simp [Except.map, unmatched_pliant, pliantItems_append, pliant, list]
    | _ => rw [merge, merge] <;> simp [pliant, list, Except.map]
  | .absent, here, override | .null, here, override | .bool _, here, override
  | .int _, here, override | .double _, here, override | .string _, here, override
  | .foreign _ _, here, override => by rw [merge, merge] <;> simp [pliant, Except.map]

theorem mergeFields_pliant (locations : Locations) : (fields : List (String × Value)) →
    ∀ (here : Location) (others : Fields),
    mergeFields locations here (pliantFields fields) (pliantFields others) =
      (mergeFields locations here fields others).map pliantFields
  | [], _, _ => rfl
  | (name, v) :: rest, here, others => by
    rw [pliantFields, mergeFields, mergeFields, has_pliantFields, get_pliantFields,
      merge_pliant locations v, mergeFields_pliant locations rest]
    split
    · cases merge locations (here ++ [name]) v (Fields.get name others) with
      | error f => rfl
      | ok first => cases mergeFields locations here rest others <;> rfl
    · cases mergeFields locations here rest others <;> rfl

theorem mergeItems_pliant (locations : Locations) : (items : List Value) →
    ∀ (here : Location) (idField : String) (index : List (Key × Nat)) (others : List Value)
    (matched : List Nat),
    mergeItems locations here idField index (pliantItems others) matched (pliantItems items) =
      (mergeItems locations here idField index others matched items).map fun merged =>
        (pliantItems merged.1, merged.2)
  | [], _, _, _, _, _ => rfl
  | element :: rest, here, idField, index, others, matched => by
    have later := mergeItems_pliant locations rest here idField index others
    rw [pliantItems, mergeItems, mergeItems, idOf?_pliant]
    cases idOf? idField element with
    | none => exact later matched
    | some id =>
      simp only [Option.map_some, key_pliant]
      cases id.key with
      | error f => rfl
      | ok k =>
        simp only [ok_bind]
        cases index.lookup k with
        | none => exact later matched
        | some position =>
          simp only [item_pliantItems, merge_pliant locations element]
          split
          · exact later matched
          · rw [later]
            cases merge locations (here ++ [Location.element]) element (item position others) with
            | error f => rfl
            | ok first =>
              cases mergeItems locations here idField index others (position :: matched) rest <;>
                rfl

end

end Translate

end Recast
