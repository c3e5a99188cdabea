import Recast.Proofs.PlainMerge

/-!
Several documents laid over one another without reconciling arrays. Such merging never fails, so it
is a total function (`merge_eq_lay`). Layers can be merged from the front or from the back, where
none of them cuts an object of the layer before it off from one of the layer behind it
(`lay_assoc`). Main statement: `merge_layers`.
-/

namespace Recast.Translate

open Value

/-! ## Merging as a total function -/

mutual

/-- An override laid over a base where no array is reconciled. -/
def lay : Value → Value → Value
  | .object fields, .object others =>
    .object (layFields fields others ++ others.filter fun f => !Fields.has f.1 fields)
  | _, override => override

/-- The base's fields, each with the override's field of the same name laid over it. -/
def layFields : List (String × Value) → Fields → Fields
  | [], _ => []
  | (name, v) :: rest, others =>
    (name, if Fields.has name others then lay v (Fields.get name others) else v) ::
      layFields rest others

end

/-- What is no object covers whatever is below it. -/
theorem lay_of_cover {override : Value} (other : override.isObject = false) (base : Value) :
    lay base override = override := by
  cases override with
  | object others => cases other
  | _ => rw [lay]; simp

/-- What is no object is covered by whatever is laid over it. -/
theorem lay_of_bare {base : Value} (other : base.isObject = false) (override : Value) :
    lay base override = override := by
  cases base with
  | object fields => cases other
  | _ => rw [lay]; simp

mutual

/-- **Plain merging never fails.** -/
theorem merge_eq_lay : (base : Value) → ∀ (here : Location) (override : Value),
    merge [] here base override = .ok (lay base override)
  | .object fields, here, override => by
    cases override with
    | object others =>
      rw [merge, mergeFields_eq_lay fields here others]
      rfl
    | _ => rw [merge, lay] <;> simp
  | .array _ _, here, override | .absent, here, override | .null, here, override
  | .bool _, here, override | .int _, here, override | .double _, here, override
  | .string _, here, override | .foreign _ _, here, override => by
    rw [merge_replaces (by simp [isObject]), lay_of_bare rfl]

theorem mergeFields_eq_lay : (fields : List (String × Value)) → ∀ (here : Location)
    (others : Fields), mergeFields [] here fields others = .ok (layFields fields others)
  | [], _, _ => rfl
  | (name, v) :: rest, here, others => by
    rw [mergeFields, merge_eq_lay v, mergeFields_eq_lay rest, layFields]
    split <;> rfl

end

/-! ## Fields -/

/-- The fields of two objects laid over each other. -/
def joined (fields others : Fields) : Fields :=
  layFields fields others ++ others.filter fun f => !Fields.has f.1 fields

theorem lay_objects (fields others : Fields) :
    lay (.object fields) (.object others) = .object (joined fields others) := rfl

theorem layFields_eq_map (fields others : Fields) :
    layFields fields others = fields.map fun f =>
      (f.1, if Fields.has f.1 others then lay f.2 (Fields.get f.1 others) else f.2) := by
  induction fields with
  | nil => rfl
  | cons field rest ih =>
    obtain ⟨name, v⟩ := field
    rw [layFields, ih, List.map_cons]

/-- An object without fields leaves another object as it is. -/
theorem lay_empty {base : Value} (object : base.isObject = true) :
    lay base (.object []) = base := by
  obtain ⟨fields, rfl⟩ := isObject_iff.mp object
  simp [lay_objects, joined, layFields_eq_map, Fields.has]

theorem isObject_lay {override : Value} (object : override.isObject = true) (base : Value) :
    (lay base override).isObject = true := by
  obtain ⟨others, rfl⟩ := isObject_iff.mp object
  cases bare : base.isObject with
  | false => rw [lay_of_bare bare, object]
  | true =>
    obtain ⟨fields, rfl⟩ := isObject_iff.mp bare
    rfl

theorem layFields_append (fields more others : Fields) :
    layFields (fields ++ more) others = layFields fields others ++ layFields more others := by
  simp only [layFields_eq_map, List.map_append]

/-- Fields can be left out by their names before an override is laid over them, or afterwards. -/
theorem layFields_filter (keep : String → Bool) (fields others : Fields) :
    layFields (fields.filter fun f => keep f.1) others =
      (layFields fields others).filter fun f => keep f.1 := by
  rw [layFields_eq_map, layFields_eq_map, List.filter_map]
  rfl

theorem has_joined (name : String) (fields others : Fields) :
    Fields.has name (joined fields others) =
      (Fields.has name fields || Fields.has name others) := by
  rw [Bool.eq_iff_iff, Bool.or_eq_true]
  exact has_merged (mergeFields_eq_lay fields [] others) name

theorem get_joined (name : String) (fields others : Fields) :
    Fields.get name (joined fields others) =
      if Fields.has name others then lay (Fields.get name fields) (Fields.get name others)
      else Fields.get name fields := by
  have laid := merge_eq_lay (.object fields) [] (.object others)
  cases has : Fields.has name others with
  | true =>
    have below := merge_select laid has
    rw [merge_eq_lay] at below
    exact (Except.ok.inj below).symm
  | false => exact select_merge laid has

/-! ## Three layers -/

/-- Wherever along field names two values both have objects, one between them has an object too, or
nothing. -/
def Bridges (a b c : Value) : Prop :=
  ∀ names : List String, (a.resolve (names.map Element.field)).isObject = true →
    (c.resolve (names.map Element.field)).isObject = true →
    b.resolve (names.map Element.field) = .absent ∨
      (b.resolve (names.map Element.field)).isObject = true

theorem Bridges.select {a b c : Value} (h : Bridges a b c) (name : String) :
    Bridges (a.select (.field name)) (b.select (.field name)) (c.select (.field name)) :=
  fun names => h (name :: names)

/-- What has an object along field names is itself one. -/
theorem isObject_of_resolve {v : Value} {names : List String}
    (h : (v.resolve (names.map Element.field)).isObject = true) : v.isObject = true := by
  cases names with
  | nil => exact h
  | cons name rest =>
    by_contra other
    rw [List.map_cons, resolve, select_field_of_isObject (by simpa using other),
      resolve_absent] at h
    cases h

/-- Laying fields over fields twice is laying those of both overrides over them at once, where that
holds of each value. -/
theorem layFields_layFields {fields others more : Fields}
    (each : ∀ f ∈ fields, Fields.has f.1 others = true → Fields.has f.1 more = true →
      lay (lay f.2 (Fields.get f.1 others)) (Fields.get f.1 more) =
        lay f.2 (lay (Fields.get f.1 others) (Fields.get f.1 more))) :
    layFields (layFields fields others) more = layFields fields (joined others more) := by
  rw [layFields_eq_map, layFields_eq_map fields, layFields_eq_map fields, List.map_map]
  apply List.map_congr_left
  intro f mem
  apply Prod.ext
  · rfl
  · simp only [Function.comp_apply, has_joined, get_joined]
    by_cases has : Fields.has f.1 others = true
    · by_cases has' : Fields.has f.1 more = true
      · simp [has, has', each f mem has has']
      · simp [has, has']
    · have nothing : Fields.get f.1 others = .absent :=
        Fields.get_of_not_has (by simpa using has)
      have bare : ∀ override, lay .absent override = override := lay_of_bare rfl
      by_cases has' : Fields.has f.1 more = true
      · simp [has, has', nothing, bare]
      · simp [has, has']

/-- The fields of three objects: those of the first in their order, then those of the second alone,
then those of the third alone, from whichever end the objects are merged. -/
theorem joined_joined {fields others more : Fields}
    (each : layFields (layFields fields others) more = layFields fields (joined others more)) :
    joined (joined fields others) more = joined fields (joined others more) := by
  have third : (more.filter fun f => !Fields.has f.1 (joined fields others)) =
      (more.filter fun f => !Fields.has f.1 others).filter fun f => !Fields.has f.1 fields := by
    simp only [has_joined, Bool.not_or, List.filter_filter]
  have second : layFields (others.filter fun f => !Fields.has f.1 fields) more =
      (layFields others more).filter fun f => !Fields.has f.1 fields :=
    layFields_filter (fun name => !Fields.has name fields) others more
  calc joined (joined fields others) more
      = layFields (layFields fields others) more ++
          layFields (others.filter fun f => !Fields.has f.1 fields) more ++
          more.filter fun f => !Fields.has f.1 (joined fields others) := by
        rw [joined, ← layFields_append]
        rfl
    _ = layFields fields (joined others more) ++
          ((layFields others more).filter (fun f => !Fields.has f.1 fields) ++
            (more.filter fun f => !Fields.has f.1 others).filter
              fun f => !Fields.has f.1 fields) := by
        rw [each, second, third, List.append_assoc]
    _ = joined fields (joined others more) := by
        rw [← List.filter_append]
        rfl

/-- **Three layers.** They can be merged from either end, if the middle one bridges the others. -/
theorem lay_assoc {a b c : Value} (json : a.isJson = true) (json' : b.isJson = true)
    (bridges : Bridges a b c) : lay (lay a b) c = lay a (lay b c) := by
  induction a using nested_induction generalizing b c with
  | object fields ih =>
    cases object : c.isObject with
    | false =>
      have covers := lay_of_cover object
      rw [covers, covers, covers]
    | true =>
      obtain ⟨more, rfl⟩ := isObject_iff.mp object
      obtain ⟨others, rfl⟩ : ∃ others, b = .object others := by
        rcases bridges [] rfl rfl with absent | between
        · obtain rfl : b = .absent := absent
          cases json'
        · exact isObject_iff.mp between
      obtain ⟨distinct, members⟩ := isJson_object_iff.mp json
      obtain ⟨_, members'⟩ := isJson_object_iff.mp json'
      apply congrArg Value.object
      apply joined_joined
      apply layFields_layFields
      intro f mem has _
      have own : (Value.object fields).select (.field f.1) = f.2 := Fields.get_of_mem distinct mem
      have inside := bridges.select f.1
      rw [own] at inside
      exact ih f mem (members f mem) (members' _ (Fields.mem_of_has has)) inside
  | _ =>
    exact (congrArg (fun v => lay v c) (lay_of_bare (by rfl) b)).trans
      (lay_of_bare (by rfl) (lay b c)).symm

/-- **Layered overrides can be merged beforehand.** Take three documents, the first two of them
JSON. Merging the second onto the first and the third onto that gives just what the first becomes
when the other two, merged beforehand, are laid over it, fields in their places; unless along field
names the second has something other than an object where the first and the third both have objects.
An object without fields makes no difference, above or below. -/
theorem merge_layers :
    (∀ a b c : Value, a.isJson = true → b.isJson = true → Bridges a b c →
      ∃ ab bc r, merge [] [] a b = .ok ab ∧ merge [] [] b c = .ok bc ∧
        merge [] [] ab c = .ok r ∧ merge [] [] a bc = .ok r) ∧
    ∀ fields : Fields,
      merge [] [] (.object fields) (.object []) = .ok (.object fields) ∧
      merge [] [] (.object []) (.object fields) = .ok (.object fields) := by
  refine ⟨?_, ?_⟩
  · intro a b c json json' bridges
    refine ⟨lay a b, lay b c, lay a (lay b c), ?_, ?_, ?_, ?_⟩
    · exact merge_eq_lay a [] b
    · exact merge_eq_lay b [] c
    · rw [merge_eq_lay, lay_assoc json json' bridges]
    · exact merge_eq_lay a [] (lay b c)
  · intro fields
    have above : joined [] fields = fields := by simp [joined, layFields, Fields.has]
    rw [merge_eq_lay, merge_eq_lay, lay_empty rfl, lay_objects, above]
    exact ⟨rfl, rfl⟩

/-- The first and the third both have an object at `x`, and the second bridges them; the object of
the third at `y` has nothing to be cut off from. -/
theorem merge_layers_nested :
    let a : Value := .object [("x", .object [("p", .int 1)]), ("n", .null)]
    let b : Value := .object [("y", .int 0), ("x", .object [("q", .int 2)])]
    let c : Value := .object [("x", .object [("r", .null), ("p", .int 3)]), ("y", .object [])]
    a.isJson = true ∧ b.isJson = true ∧ Bridges a b c ∧
    ∃ ab bc r, merge [] [] a b = .ok ab ∧ merge [] [] b c = .ok bc ∧
      merge [] [] ab c = .ok r ∧ merge [] [] a bc = .ok r := by
  intro a b c
  have json : a.isJson = true := by decide
  have json' : b.isJson = true := by decide
  have bridges : Bridges a b c := by
    intro names first _
    cases names with
    | nil => exact Or.inr rfl
    | cons name rest =>
      have object : (a.select (.field name)).isObject = true := isObject_of_resolve first
      by_cases at_x : name = "x"
      · subst at_x
        cases rest with
        | nil => exact Or.inr rfl
        | cons inner deeper =>
          have below : ((a.select (.field "x")).select (.field inner)).isObject = true :=
            isObject_of_resolve first
          by_cases at_p : "p" = inner <;> simp [a, select, Fields.get, at_p, isObject] at below
      · by_cases at_n : "n" = name <;>
          simp [a, select, Fields.get, Ne.symm at_x, at_n, isObject] at object
  exact ⟨json, json', bridges, merge_layers.1 a b c json json' bridges⟩

/-- A number in the middle cuts the objects on both sides of it off from each other, unless they are
merged after it. -/
example :
    let a : Value := .object [("x", .object [("p", .int 1)])]
    let b : Value := .object [("x", .int 0)]
    let c : Value := .object [("x", .object [("q", .int 2)])]
    lay (lay a b) c = c ∧
      lay a (lay b c) = .object [("x", .object [("p", .int 1), ("q", .int 2)])] :=
  ⟨rfl, rfl⟩

end Recast.Translate
