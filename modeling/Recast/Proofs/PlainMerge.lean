import Recast.Proofs.Overlay

/-!
One document laid over another without reconciling arrays, path by path. Along field names the
result has what the override has, and only objects are merged (`merge_replaces`, `resolve_merge`);
where the override has nothing, the last thing that it has on the way tells whether the base is kept
(`resolve_merge_beyond`). Main statement: `merge_path_by_path`.
-/

namespace Recast.Translate

open Value

/-! ## How far a path goes -/

/-- `reached` is the longest part of a path of names, from its front, at which a value has
something. -/
structure Furthest (v : Value) (names reached : List String) : Prop where
  front : reached <+: names
  found : v.resolve (reached.map Element.field) ≠ .absent
  longest : ∀ further, further <+: names → v.resolve (further.map Element.field) ≠ .absent →
    further.length ≤ reached.length

theorem Furthest.unique {v : Value} {names reached reached' : List String}
    (h : Furthest v names reached) (h' : Furthest v names reached') : reached = reached' := by
  have same : reached.length = reached'.length :=
    Nat.le_antisymm (h'.longest _ h.front h.found) (h.longest _ h'.front h'.found)
  exact (List.prefix_of_prefix_length_le h.front h'.front (Nat.le_of_eq same)).eq_of_length same

theorem exists_furthest {v : Value} (present : v ≠ .absent) (names : List String) :
    ∃ reached, Furthest v names reached := by
  induction names generalizing v with
  | nil =>
    exact ⟨[], List.nil_prefix, present, fun further front _ => front.length_le⟩
  | cons name rest ih =>
    by_cases stops : v.select (.field name) = .absent
    · refine ⟨[], List.nil_prefix, present, fun further front found => ?_⟩
      rcases List.prefix_cons_iff.mp front with rfl | ⟨more, rfl, _⟩
      · exact Nat.le_refl 0
      · rw [List.map_cons, resolve, stops, resolve_absent] at found
        exact absurd rfl found
    · obtain ⟨reached, front, found, longest⟩ := ih stops
      refine ⟨name :: reached, List.cons_prefix_cons.mpr ⟨rfl, front⟩, found,
        fun further front' found' => ?_⟩
      rcases List.prefix_cons_iff.mp front' with rfl | ⟨more, rfl, inside⟩
      · exact Nat.zero_le _
      · exact Nat.succ_le_succ (longest more inside found')

/-- A path that finds nothing goes on behind its furthest part, with a name that is not there. -/
theorem Furthest.beyond {v : Value} {names reached : List String} (h : Furthest v names reached)
    (nothing : v.resolve (names.map Element.field) = .absent) :
    ∃ name rest, names = reached ++ name :: rest ∧
      (v.resolve (reached.map Element.field)).select (.field name) = .absent := by
  obtain ⟨tail, rfl⟩ := h.front
  cases tail with
  | nil =>
    rw [List.append_nil] at nothing
    exact absurd nothing h.found
  | cons name rest =>
    refine ⟨name, rest, rfl, ?_⟩
    by_contra more
    have further : reached ++ [name] <+: reached ++ name :: rest := ⟨rest, by simp⟩
    have step := h.longest _ further (by
      rw [List.map_append, resolve_append]
      exact more)
    rw [List.length_append] at step
    exact absurd step (Nat.not_succ_le_self _)

/-! ## Merging without reconciling -/

/-- Where no array is reconciled, only objects are merged: the override takes the place of anything
else. -/
theorem merge_replaces {here : Location} {base override : Value}
    (h : ¬ (base.isObject = true ∧ override.isObject = true)) :
    merge [] here base override = .ok override := by
  cases override with
  | object others =>
    have other : base.isObject = false := by
      by_contra object
      exact h ⟨by simpa using object, rfl⟩
    exact merge_replaced other others
  | array fixed others =>
    cases base with
    | array _ items =>
      rw [merge]
      rfl
    | _ => rw [merge] <;> simp
  | _ => rw [merge] <;> simp

/-- An object of JSON has something in each of its fields. -/
theorem not_has_of_select {fields : Fields} {name : String} (json : (object fields).isJson = true)
    (nothing : (object fields).select (.field name) = .absent) : Fields.has name fields = false := by
  by_contra has
  have member := (isJson_object_iff.mp json).2 _ (Fields.mem_of_has (by simpa using has))
  have absent : Fields.get name fields = .absent := nothing
  rw [absent] at member
  cases member

/-- **Where an override stops.** Behind the furthest part of a path at which the override has
something, the result is what the base has, if the override has an object there, and otherwise
nothing. -/
theorem resolve_merge_beyond {base override r : Value} {names reached : List String}
    (json : override.isJson = true) (h : merge [] [] base override = .ok r)
    (furthest : Furthest override names reached)
    (nothing : override.resolve (names.map Element.field) = .absent) :
    r.resolve (names.map Element.field) =
      if (override.resolve (reached.map Element.field)).isObject then
        base.resolve (names.map Element.field)
      else .absent := by
  have laid := resolve_merge reached h furthest.found
  obtain ⟨name, rest, rfl, stops⟩ := furthest.beyond nothing
  have split : ∀ v : Value, v.resolve ((reached ++ name :: rest).map Element.field) =
      ((v.resolve (reached.map Element.field)).select (.field name)).resolve
        (rest.map Element.field) := by
    intro v
    rw [List.map_append, resolve_append]
    rfl
  cases object : (override.resolve (reached.map Element.field)).isObject with
  | true =>
    obtain ⟨others, found⟩ := isObject_iff.mp object
    have json' : (Value.object others).isJson = true := by
      rw [← found]
      exact isJson_of_isPart (isPart_resolve json _) (by rw [found]; rfl)
    rw [found] at laid stops
    rw [split, split, select_merge laid (not_has_of_select json' stops), if_pos rfl]
  | false =>
    rw [merge_replaces (by simp [object]), Except.ok.injEq] at laid
    rw [split, ← laid, stops, resolve_absent]
    rfl

/-- The fields of two objects laid over each other: the base's in their order, then those of the
override alone in theirs. -/
theorem names_merge {here : Location} {fields others : Fields} {r : Value}
    (h : merge [] here (.object fields) (.object others) = .ok r) :
    ∃ merged, r = .object merged ∧ Fields.names merged =
      Fields.names fields ++ (Fields.names others).filter fun name => !Fields.has name fields := by
  obtain ⟨merged, made, rfl⟩ := merge_objects_ok h
  exact ⟨_, rfl, names_merged made⟩

/-- **Plain merging, path by path.** JSON can be laid over JSON. Then take any path of names. Where
the override has something, the result has just that, unless the base and the override both have
objects there: then it has an object with the base's fields in their order, followed by those of the
override alone in theirs. Where the override has nothing, look at the last thing that it has on the
way: behind an object the result has what the base has, and behind anything else it has nothing. -/
theorem merge_path_by_path (base override : Value) (json : base.isJson = true)
    (json' : override.isJson = true) :
    ∃ r, merge [] [] base override = .ok r ∧ ∀ names : List String,
      (override.resolve (names.map Element.field) ≠ .absent →
        (∀ fields others, base.resolve (names.map Element.field) = .object fields →
          override.resolve (names.map Element.field) = .object others →
          ∃ merged, r.resolve (names.map Element.field) = .object merged ∧
            Fields.names merged = Fields.names fields ++
              (Fields.names others).filter fun name => !Fields.has name fields) ∧
        (¬ ((base.resolve (names.map Element.field)).isObject = true ∧
            (override.resolve (names.map Element.field)).isObject = true) →
          r.resolve (names.map Element.field) = override.resolve (names.map Element.field))) ∧
      (override.resolve (names.map Element.field) = .absent →
        ∃ reached, Furthest override names reached ∧
          r.resolve (names.map Element.field) =
            if (override.resolve (reached.map Element.field)).isObject then
              base.resolve (names.map Element.field)
            else .absent) := by
  obtain ⟨r, made⟩ := merge_total [] base json [] override (isPart_of_isJson json')
  refine ⟨r, made, fun names => ⟨fun present => ?_, fun nothing => ?_⟩⟩
  · have laid := resolve_merge names made present
    refine ⟨fun fields others found found' => ?_, fun apart => ?_⟩
    · rw [found, found'] at laid
      exact names_merge laid
    · rw [merge_replaces apart, Except.ok.injEq] at laid
      exact laid.symm
  · have present : override ≠ .absent := by
      rintro rfl
      cases json'
    obtain ⟨reached, furthest⟩ := exists_furthest present names
    exact ⟨reached, furthest, resolve_merge_beyond json' made furthest nothing⟩

/-- A leaf of the base is kept beside the fields of the override, and lost where the override has an
array in the place of its object. -/
theorem merge_path_by_path_leaf :
    let base : Value := .object
      [("a", .object [("x", .int 1), ("y", .int 2)]), ("b", .object [("x", .int 3)])]
    let override : Value := .object
      [("b", .list [.int 4]), ("a", .object [("z", .null), ("y", .int 5)])]
    base.isJson = true ∧ override.isJson = true ∧
    ∃ r, merge [] [] base override = .ok r ∧
      r.resolve [.field "a", .field "x"] = .int 1 ∧ r.resolve [.field "b", .field "x"] = .absent ∧
      ∃ merged, r.resolve [.field "a"] = .object merged ∧ Fields.names merged = ["x", "y", "z"] := by
  intro base override
  have json : base.isJson = true := by decide
  have json' : override.isJson = true := by decide
  obtain ⟨r, made, paths⟩ := merge_path_by_path base override json json'
  have stops : ∀ top : String, override.resolve [.field top] ≠ .absent →
      override.resolve [.field top, .field "x"] = .absent → Furthest override [top, "x"] [top] := by
    intro top found nothing
    refine ⟨⟨["x"], rfl⟩, found, fun further front found' => ?_⟩
    by_contra longer
    have whole : further = [top, "x"] := front.eq_of_length_le (Nat.lt_of_not_le longer)
    rw [whole] at found'
    exact found' nothing
  refine ⟨json, json', r, made, ?_, ?_, ?_⟩
  · obtain ⟨reached, furthest, kept⟩ := (paths ["a", "x"]).2 rfl
    rw [furthest.unique (stops "a" nofun rfl)] at kept
    exact kept
  · obtain ⟨reached, furthest, lost⟩ := (paths ["b", "x"]).2 rfl
    rw [furthest.unique (stops "b" nofun rfl)] at lost
    exact lost
  · exact ((paths ["a"]).1 nofun).1 _ _ rfl rfl

end Recast.Translate
