import Recast.Proofs.Identity
import Recast.Proofs.Preservation

/-!
What paths find in one document laid over another. Laying JSON over JSON always succeeds
(`merge_total`). Along field names the result is what the override has there, laid over what the
base has (`resolve_merge`); where the override's objects end before the path does, it is what the
base has (`resolve_merge_of_vacant`).
-/

namespace Recast

namespace Fields

theorem get_append (name : String) (fields more : Fields) :
    get name (fields ++ more) = if has name fields then get name fields else get name more := by
  induction fields with
  | nil => rfl
  | cons field rest ih =>
    obtain ⟨key, old⟩ := field
    by_cases hk : key = name
    · simp [get, has, hk]
    · have hr : has name ((key, old) :: rest) = has name rest := by simp [has, hk]
      simp [get, hk, hr, ih]

/-- Leaving out fields of other names does not change what a name holds. -/
theorem get_filter {name : String} {fields : Fields} (lacks : has name fields = false)
    (others : Fields) : get name (others.filter fun f => !has f.1 fields) = get name others := by
  induction others with
  | nil => rfl
  | cons field rest ih =>
    obtain ⟨key, old⟩ := field
    by_cases hk : key = name
    · subst hk
      simp [lacks, get]
    · cases hkeep : has key fields <;> simp [hkeep, get, hk, ih]

end Fields

namespace Translate

open Value

/-! ## Success -/

mutual

/-- Laying JSON, or nothing, over JSON succeeds. -/
theorem merge_total (locations : Locations) : (base : Value) → base.isJson = true →
    ∀ (here : Location) (override : Value), override.isPart = true →
    ∃ r, merge locations here base override = .ok r
  | .object fields, json, here, override, part => by
    cases override with
    | object others =>
      have json' := isJson_of_isPart part rfl
      obtain ⟨merged, made⟩ := mergeFields_total locations fields (isJson_object_iff.mp json).2 here
        others (isJson_object_iff.mp json').2
      exact ⟨_, by rw [merge, made]; rfl⟩
    | _ => exact ⟨_, by rw [merge] <;> simp⟩
  | .array fixed items, json, here, override, part => by
    cases override with
    | array fixed' others =>
      have members := (all_array_iff.mp (isJson_of_isPart part rfl)).2
      rw [merge]
      cases locations.idField? here with
      | none => exact ⟨_, rfl⟩
      | some idField =>
        obtain ⟨index, built, _⟩ := lookup_idIndex idField 0 members
        obtain ⟨⟨merged, used⟩, made⟩ := mergeItems_total locations items (all_array_iff.mp json).2
          here idField index others members []
        exact ⟨_, by simp only [built, made, ok_bind]; rfl⟩
    | _ => exact ⟨_, by rw [merge] <;> simp⟩
  | .absent, _, _, override, _ | .null, _, _, override, _ | .bool _, _, _, override, _
  | .int _, _, _, override, _ | .double _, _, _, override, _ | .string _, _, _, override, _
  | .foreign _ _, _, _, override, _ => ⟨override, by rw [merge] <;> simp⟩

theorem mergeFields_total (locations : Locations) : (fields : List (String × Value)) →
    (∀ f ∈ fields, f.2.isJson = true) → ∀ (here : Location) (others : Fields),
    (∀ f ∈ others, f.2.isJson = true) →
    ∃ merged, mergeFields locations here fields others = .ok merged
  | [], _, _, _, _ => ⟨[], rfl⟩
  | (name, v) :: rest, json, here, others, json' => by
    obtain ⟨first, json⟩ := List.forall_mem_cons.mp json
    obtain ⟨tail, made⟩ := mergeFields_total locations rest json here others json'
    rw [mergeFields, made]
    split
    · obtain ⟨merged, made'⟩ := merge_total locations v first (here ++ [name])
        (Fields.get name others) (isPart_iff.mpr (get_all json' name))
      exact ⟨_, by rw [made']; rfl⟩
    · exact ⟨_, rfl⟩

theorem mergeItems_total (locations : Locations) : (items : List Value) →
    (∀ v ∈ items, v.isJson = true) → ∀ (here : Location) (idField : String)
    (index : List (Key × Nat)) (others : List Value), (∀ v ∈ others, v.isJson = true) →
    ∀ matched : List Nat,
    ∃ merged, mergeItems locations here idField index others matched items = .ok merged
  | [], _, _, _, _, _, _, matched => ⟨([], matched), rfl⟩
  | element :: rest, json, here, idField, index, others, json', matched => by
    obtain ⟨first, json⟩ := List.forall_mem_cons.mp json
    have rest_total := mergeItems_total locations rest json here idField index others json'
    rw [mergeItems]
    split
    · exact rest_total matched
    · rename_i id identified
      rw [key_eq_normal id (isJson_of_idOf? first identified), ok_bind]
      split
      · exact rest_total matched
      · rename_i position _
        split
        · exact rest_total matched
        · obtain ⟨merged, made⟩ := merge_total locations element first (here ++ [Location.element])
            (item position others) (isPart_iff.mpr (item_all json' position))
          obtain ⟨⟨tail, used⟩, made'⟩ := rest_total (position :: matched)
          exact ⟨_, by rw [made, ok_bind, made']; rfl⟩

end

/-! ## One name -/

section
variable {locations : Locations} {here : Location}

theorem mergeFields_cons_ok {name : String} {v : Value} {rest others merged : Fields}
    (h : mergeFields locations here ((name, v) :: rest) others = .ok merged) :
    ∃ first tail, (if Fields.has name others then
        merge locations (here ++ [name]) v (Fields.get name others) else .ok v) = .ok first ∧
      mergeFields locations here rest others = .ok tail ∧ merged = (name, first) :: tail := by
  rw [mergeFields] at h
  split at h
  · rename_i has
    obtain ⟨first, made, h⟩ := bind_eq_ok.mp h
    obtain ⟨tail, more, h⟩ := bind_eq_ok.mp h
    cases h
    exact ⟨first, tail, by rw [if_pos has, made], more, rfl⟩
  · rename_i lacks
    rw [pure_eq, ok_bind] at h
    obtain ⟨tail, more, h⟩ := bind_eq_ok.mp h
    cases h
    exact ⟨v, tail, by rw [if_neg lacks], more, rfl⟩

theorem names_mergeFields {fields others merged : Fields}
    (h : mergeFields locations here fields others = .ok merged) :
    Fields.names merged = Fields.names fields := by
  induction fields generalizing merged with
  | nil =>
    cases h
    rfl
  | cons field rest ih =>
    obtain ⟨name, v⟩ := field
    obtain ⟨first, tail, _, made, rfl⟩ := mergeFields_cons_ok h
    simpa [Fields.names] using ih made

theorem has_mergeFields {fields others merged : Fields}
    (h : mergeFields locations here fields others = .ok merged) (name : String) :
    Fields.has name merged = Fields.has name fields := by
  rw [Bool.eq_iff_iff, Fields.has_iff, Fields.has_iff, names_mergeFields h]

/-- A field of the base holds what it held, with the override's field of its name laid over it. -/
theorem get_mergeFields {fields others merged : Fields}
    (h : mergeFields locations here fields others = .ok merged) {name : String}
    (has : Fields.has name fields = true) :
    (if Fields.has name others then
      merge locations (here ++ [name]) (Fields.get name fields) (Fields.get name others)
    else .ok (Fields.get name fields)) = .ok (Fields.get name merged) := by
  induction fields generalizing merged with
  | nil => cases has
  | cons field rest ih =>
    obtain ⟨key, v⟩ := field
    obtain ⟨first, tail, made, more, rfl⟩ := mergeFields_cons_ok h
    by_cases hk : key = name
    · subst hk
      simpa [Fields.get] using made
    · have later : Fields.has name rest = true := by simpa [Fields.has, hk] using has
      simpa [Fields.get, hk] using ih more later

/-- A field of a merge was one of the base's, with the override's field of its name laid over it. -/
theorem exists_of_mem_mergeFields {fields others merged : Fields}
    (h : mergeFields locations here fields others = .ok merged) {f : String × Value}
    (mem : f ∈ merged) :
    ∃ v, (f.1, v) ∈ fields ∧ (if Fields.has f.1 others then
      merge locations (here ++ [f.1]) v (Fields.get f.1 others) else .ok v) = .ok f.2 := by
  induction fields generalizing merged with
  | nil =>
    cases h
    cases mem
  | cons field rest ih =>
    obtain ⟨name, v⟩ := field
    obtain ⟨first, tail, made, more, rfl⟩ := mergeFields_cons_ok h
    rcases List.mem_cons.mp mem with rfl | mem
    · exact ⟨v, List.mem_cons_self, made⟩
    · obtain ⟨w, old, laid⟩ := ih more mem
      exact ⟨w, List.mem_cons_of_mem _ old, laid⟩

theorem merge_absent (override : Value) : merge locations here .absent override = .ok override := by
  rw [merge] <;> simp

/-- An override takes the place of a base of another kind, and of one that has no members. -/
theorem merge_override {base override : Value}
    (h : base.kind? = override.kind? → base.kind? ≠ some .object ∧ base.kind? ≠ some .array) :
    merge locations here base override = .ok override := by
  rw [merge]
  · rintro fields others rfl rfl
    exact (h rfl).1 rfl
  · rintro f items fixed others rfl rfl
    exact (h rfl).2 rfl

/-- An object takes the place of anything that is none. -/
theorem merge_replaced {base : Value} (other : base.isObject = false) (others : Fields) :
    merge locations here base (.object others) = .ok (.object others) := by
  rw [merge]
  · rintro fields _ rfl
    cases other
  · simp

/-- So does an array. -/
theorem merge_onto_other {base : Value} (other : ∀ fixed items, base ≠ .array fixed items)
    (others : List Value) : merge locations here base (.list others) = .ok (.list others) := by
  rw [list, merge]
  · simp
  · rintro fixed items _ _ rfl
    exact absurd rfl (other fixed items)

/-- The fields of a merge of objects: first the base's, then those of the override alone. -/
theorem merge_objects_ok {fields others : Fields} {r : Value}
    (h : merge locations here (.object fields) (.object others) = .ok r) :
    ∃ merged, mergeFields locations here fields others = .ok merged ∧
      r = .object (merged ++ others.filter fun f => !Fields.has f.1 fields) := by
  rw [merge] at h
  obtain ⟨merged, made, h⟩ := bind_eq_ok.mp h
  cases h
  exact ⟨merged, made, rfl⟩

theorem names_merged {fields others merged : Fields}
    (h : mergeFields locations here fields others = .ok merged) :
    Fields.names (merged ++ others.filter fun f => !Fields.has f.1 fields) =
      Fields.names fields ++ (Fields.names others).filter fun name => !Fields.has name fields := by
  rw [← names_mergeFields h, Fields.names, List.map_append, Fields.names, Fields.names,
    List.filter_map]
  rfl

/-- The fields of a merge are those of the base and those of the override. -/
theorem has_merged {fields others merged : Fields}
    (h : mergeFields locations here fields others = .ok merged) (name : String) :
    Fields.has name (merged ++ others.filter fun f => !Fields.has f.1 fields) = true ↔
      Fields.has name fields = true ∨ Fields.has name others = true := by
  rw [Fields.has_iff, names_merged h, List.mem_append, List.mem_filter, ← Fields.has_iff,
    ← Fields.has_iff]
  cases Fields.has name fields <;> simp

theorem nodup_merged {fields others merged : Fields}
    (h : mergeFields locations here fields others = .ok merged)
    (distinct : (Fields.names fields).Nodup) (distinct' : (Fields.names others).Nodup) :
    (Fields.names (merged ++ others.filter fun f => !Fields.has f.1 fields)).Nodup := by
  rw [names_merged h]
  refine distinct.append (distinct'.filter _) ?_
  intro name base alone
  obtain ⟨_, lacks⟩ := List.mem_filter.mp alone
  rw [Fields.has_iff.mpr base] at lacks
  cases lacks

/-- At a field that an override has, the result is that field laid over the base's. -/
theorem merge_select {base r : Value} {others : Fields} {name : String}
    (h : merge locations here base (.object others) = .ok r) (has : Fields.has name others = true) :
    merge locations (here ++ [name]) (base.select (.field name)) (Fields.get name others) =
      .ok (r.select (.field name)) := by
  cases object : base.isObject with
  | false =>
    rw [merge_replaced object] at h
    cases h
    rw [select_field_of_isObject object, merge_absent]
    rfl
  | true =>
    obtain ⟨fields, rfl⟩ := isObject_iff.mp object
    obtain ⟨merged, made, rfl⟩ := merge_objects_ok h
    simp only [select, Fields.get_append, has_mergeFields made]
    cases old : Fields.has name fields with
    | true => simpa [has] using get_mergeFields made old
    | false => simp [Fields.get_filter old, Fields.get_of_not_has old, merge_absent]

/-- At a field that an override lacks, the result is the base's. -/
theorem select_merge {base r : Value} {others : Fields} {name : String}
    (h : merge locations here base (.object others) = .ok r)
    (lacks : Fields.has name others = false) :
    r.select (.field name) = base.select (.field name) := by
  cases object : base.isObject with
  | false =>
    rw [merge_replaced object] at h
    cases h
    rw [select_field_of_isObject object]
    exact Fields.get_of_not_has lacks
  | true =>
    obtain ⟨fields, rfl⟩ := isObject_iff.mp object
    obtain ⟨merged, made, rfl⟩ := merge_objects_ok h
    simp only [select, Fields.get_append, has_mergeFields made]
    cases old : Fields.has name fields with
    | true =>
      have same := get_mergeFields made old
      simp only [lacks, Bool.false_eq_true, if_false, Except.ok.injEq] at same
      simp [same]
    | false => simp [Fields.get_filter old, Fields.get_of_not_has old, Fields.get_of_not_has lacks]

end

/-! ## Paths of names -/

/-- **Where an override has something.** At a path of names that finds something in the override,
the result is what it finds there, laid over what it finds in the base. -/
theorem resolve_merge {locations : Locations} {here : Location} {base override r : Value}
    (names : List String) (h : merge locations here base override = .ok r)
    (present : override.resolve (names.map Element.field) ≠ .absent) :
    merge locations (here ++ names) (base.resolve (names.map Element.field))
      (override.resolve (names.map Element.field)) = .ok (r.resolve (names.map Element.field)) := by
  induction names generalizing here base override r with
  | nil => simpa [resolve] using h
  | cons name rest ih =>
    simp only [List.map_cons, resolve] at present ⊢
    have found : override.select (.field name) ≠ .absent := by
      intro absent
      rw [absent, resolve_absent] at present
      exact present rfl
    cases override with
    | object others =>
      have has : Fields.has name others = true := by
        by_contra lacks
        exact found (Fields.get_of_not_has (by simpa using lacks))
      have below := ih (merge_select h has) present
      rwa [List.append_assoc] at below
    | _ => exact absurd rfl found

/-- A path of names finds nothing, and there are only objects on the way to where it ends. -/
def Vacant : List String → Value → Prop
  | [], v => v = .absent
  | name :: rest, v =>
    (v = .absent ∨ v.isObject = true) ∧ Vacant rest (v.select (.field name))

/-- **Where an override has nothing.** At a path of names along which the override's objects end,
the result is what the base has. -/
theorem resolve_merge_of_vacant {locations : Locations} {here : Location} {base r : Value}
    {others : Fields} {names : List String} (json : (object others).isJson = true)
    (vacant : Vacant names (.object others))
    (h : merge locations here base (.object others) = .ok r) :
    r.resolve (names.map Element.field) = base.resolve (names.map Element.field) := by
  induction names generalizing here base others r with
  | nil => cases vacant
  | cons name rest ih =>
    simp only [List.map_cons, resolve]
    cases has : Fields.has name others with
    | false => rw [select_merge h has]
    | true =>
      -- JSON holds nothing absent, so the field that is there is an object.
      have present := (isJson_object_iff.mp json).2 _ (Fields.mem_of_has has)
      have below := merge_select h has
      have vacant' : Vacant rest (Fields.get name others) := vacant.2
      cases found : Fields.get name others with
      | object fields =>
        rw [found] at below vacant' present
        exact ih present vacant' below
      | absent =>
        rw [found] at present
        cases present
      | _ =>
        rw [found] at vacant'
        cases rest with
        | nil => cases vacant'
        | cons _ _ => rcases vacant'.1 with absent | object <;> contradiction

end Translate

end Recast
