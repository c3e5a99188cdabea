import Mathlib.Data.List.Induction
import Recast.Proofs.LastWrite
import Recast.Proofs.Preservation

/-!
The order of an output's fields. It is the order in which the rules first write at or below them:
setting a field keeps its place if it is there, and each write to an object sets one field of it.
The step law is `ordered_apply`, about one edit; a rule is a list of edits and a run makes those of
its rules in order. The element of a reconciled array has its identifier in front of what its rules
wrote (`shapeElement_eq_ok`). Main statement: `fields_in_rule_order`.
-/

namespace Recast

/-! ## Fields without repeats -/

theorem eraseDups_concat (names : List String) (name : String) :
    (names ++ [name]).eraseDups =
      if name ∈ names then names.eraseDups else names.eraseDups ++ [name] := by
  rw [List.eraseDups_append]
  split <;> rename_i repeated <;> simp [List.removeAll, repeated, List.eraseDups_cons]

theorem nodup_eraseDups (names : List String) : names.eraseDups.Nodup := by
  induction names using List.reverseRecOn with
  | nil => exact List.nodup_nil
  | append_singleton names name ih =>
    rw [eraseDups_concat]
    split
    · exact ih
    · rename_i fresh
      rw [← List.concat_eq_append]
      exact ih.concat (mt List.mem_eraseDups.mp fresh)

namespace Fields

/-- Setting a field adds its name behind the names so far, unless it is one of them. -/
theorem names_set_eraseDups {written : List String} {fields : Fields}
    (ordered : names fields = written.eraseDups) (name : String) (v : Value) :
    names (set name v fields) = (written ++ [name]).eraseDups := by
  have known : has name fields = true ↔ name ∈ written := by
    rw [has_iff, ordered, List.mem_eraseDups]
  rw [names_set, eraseDups_concat, ordered]
  by_cases mem : name ∈ written
  · rw [if_pos (known.mpr mem), if_pos mem]
  · rw [if_neg (mt known.mp mem), if_neg mem]

/-- The fields with one of them in front: what it holds there, or else `v`. -/
def lead (name : String) (v : Value) (fields : Fields) : Fields :=
  (name, if has name fields then get name fields else v) :: fields.filter (·.1 ≠ name)

theorem get_lead_of_ne {name other : String} (h : other ≠ name) (v : Value)
    (fields : Fields) : get other (lead name v fields) = get other fields := by
  have kept : get other (fields.filter (·.1 ≠ name)) = get other fields := by
    induction fields with
    | nil => rfl
    | cons field rest ih =>
      obtain ⟨key, old⟩ := field
      by_cases hk : key = name
      · subst hk
        simpa [get, Ne.symm h] using ih
      · by_cases ho : key = other <;> simp_all [get]
  rw [lead, get, if_neg (Ne.symm h), kept]

theorem get_lead_self (name : String) (v : Value) (fields : Fields) :
    get name (lead name v fields) = if has name fields then get name fields else v := by
  rw [lead, get, if_pos rfl]

theorem filter_set_self (name : String) (v : Value) (fields : Fields) :
    (set name v fields).filter (·.1 ≠ name) = fields.filter (·.1 ≠ name) := by
  induction fields with
  | nil => simp [set]
  | cons field rest ih =>
    obtain ⟨key, old⟩ := field
    by_cases hk : key = name <;> simp_all [set]

theorem filter_set_of_ne {name other : String} (h : name ≠ other) (v : Value) (fields : Fields) :
    (set name v fields).filter (·.1 ≠ other) = set name v (fields.filter (·.1 ≠ other)) := by
  induction fields with
  | nil => simp [set, h]
  | cons field rest ih =>
    obtain ⟨key, old⟩ := field
    by_cases hk : key = name
    · subst hk
      simp [set, h]
    · by_cases ho : key = other <;> simp_all [set]

/-- Setting a field and moving one to the front can be done in either order. -/
theorem set_lead (key name : String) (x v : Value) (fields : Fields) :
    set key x (lead name v fields) = lead name v (set key x fields) := by
  by_cases hk : key = name
  · subst hk
    have held : has key (set key x fields) = true := has_set_iff.mpr (Or.inl rfl)
    rw [lead, lead, filter_set_self, if_pos held, get_set_self, set, if_pos rfl]
  · rw [lead, lead, filter_set_of_ne hk, has_set_of_ne (Ne.symm hk), get_set_of_ne (Ne.symm hk), set,
      if_neg (Ne.symm hk)]

theorem setAll_single {fields : Fields} (nodup : (names fields).Nodup) (name : String) (v : Value) :
    setAll [(name, v)] fields = lead name v fields := by
  induction fields using List.reverseRecOn with
  | nil => rfl
  | append_singleton fields field ih =>
    obtain ⟨key, x⟩ := field
    have split : names (fields ++ [(key, x)]) = names fields ++ [key] := by simp [names]
    rw [split, List.nodup_append_comm, List.singleton_append] at nodup
    obtain ⟨fresh, distinct⟩ := List.nodup_cons.mp nodup
    have last : setAll [(name, v)] (fields ++ [(key, x)]) =
        set key x (setAll [(name, v)] fields) := by
      simp [setAll]
    rw [last, ih distinct, set_lead, set_of_not_mem fresh]

theorem names_lead (name : String) (v : Value) (fields : Fields) :
    names (lead name v fields) = name :: (names fields).filter (· ≠ name) := by
  rw [lead, names, List.map_cons, names, List.filter_map]
  rfl

end Fields

/-! ## Runs -/

/-- The name of the top-level field that a place is at or below. -/
def topName? : List Element → Option String
  | .field name :: _ => some name
  | _ => none

/-- The names of the top-level fields that a rule writes at or below, in order: that of its
destination if there is something to copy, that of each path that finds something, or each name of
the object that is merged. -/
def Rule.topNames (source : Value) (rule : Rule) : List String :=
  (rule.places source).filterMap topName?

/-- The names of the top-level fields that the rules of a configuration write at or below, in
order. -/
def Config.topNames (source : Value) (config : Config) : List String :=
  config.toList.flatMap (·.topNames source)

/-- An object whose fields have the names written so far, in the order in which each was first
written. -/
def Ordered (written : List String) (v : Value) : Prop :=
  ∃ fields, v = .object fields ∧ Fields.names fields = written.eraseDups

/-- An edit of an object sets one of its fields. -/
theorem exists_set_of_apply {e : Edit} {fields : Fields} {after : Value}
    (h : e.apply (.object fields) = .ok after) :
    ∃ name x, topName? e.path.elements = some name ∧ after = .object (Fields.set name x fields) := by
  obtain ⟨⟨first, rest, elements, suits⟩, updated⟩ := Value.write_ok_iff.mp h
  rw [elements] at updated ⊢
  obtain ⟨_, x, _, rfl⟩ := Value.update_cons.mp updated
  cases first with
  | field name => exact ⟨name, x, rfl, rfl⟩
  | index n => cases suits

theorem ordered_apply {written : List String} {output after : Value} {e : Edit}
    (ordered : Ordered written output) (h : e.apply output = .ok after) :
    Ordered (written ++ (topName? e.path.elements).toList) after := by
  obtain ⟨fields, rfl, names⟩ := ordered
  obtain ⟨name, x, top, rfl⟩ := exists_set_of_apply h
  rw [top]
  exact ⟨_, rfl, Fields.names_set_eraseDups names name x⟩

theorem ordered_applyAll {written : List String} {output after : Value} {es : List Edit}
    (ordered : Ordered written output) (h : Edit.applyAll output es = .ok after) :
    Ordered (written ++ es.filterMap fun e => topName? e.path.elements) after := by
  induction es generalizing written output with
  | nil =>
    cases h
    simpa using ordered
  | cons e rest ih =>
    rw [Edit.applyAll_cons] at h
    obtain ⟨next, made, h⟩ := bind_eq_ok.mp h
    have later := ih (ordered_apply ordered made) h
    rw [List.append_assoc] at later
    cases top : topName? e.path.elements <;> simpa [List.filterMap_cons, top] using later

/-- The edits of rules are at the places that the rules write to, in order. -/
theorem topNames_of_edits {rules : List Rule} {source : Value} {edits : List (List Edit)}
    (all : List.Forall₂ (fun rule es => rule.edits source = .ok es) rules edits) :
    (edits.flatten.filterMap fun e => topName? e.path.elements) =
      rules.flatMap (·.topNames source) := by
  induction all with
  | nil => rfl
  | cons made _ ih =>
    rw [List.flatten_cons, List.filterMap_append, ih, List.flatMap_cons, Rule.topNames,
      ← edits_places made, List.filterMap_map]
    rfl

theorem ordered_run {config : Config} {source output : Value}
    (h : Transform.run config source = .ok output) : Ordered (config.topNames source) output := by
  cases config with
  | rules rules =>
    obtain ⟨edits, all, applied⟩ := (runRules_ok_iff rfl).mp h
    have start : Ordered [] (.object []) := ⟨[], rfl, rfl⟩
    have ordered := ordered_applyAll start applied
    rwa [List.nil_append, topNames_of_edits all] at ordered
  | misplaced v => cases h

theorem Ordered.nodup {written : List String} {fields : Fields}
    (ordered : Ordered written (.object fields)) : (Fields.names fields).Nodup := by
  obtain ⟨_, same, names⟩ := ordered
  cases same
  rw [names]
  exact nodup_eraseDups written

/-! ## Elements -/

/-- The element that a configuration makes has the fields that its run made, with the identifier in
front if the element has one. -/
theorem shapeElement_eq_ok {config : Config} {idField : String} {element : Fields} {shaped : Value} :
    Transform.shapeElement (Transform.run config) idField element = .ok shaped ↔
      ∃ made, Transform.run config (.object element) = .ok (.object made) ∧
        shaped = .object (if Fields.has idField element then
          Fields.lead idField (Fields.get idField element) made else made) := by
  have overlaid : ∀ made, Transform.run config (.object element) = .ok (.object made) →
      Fields.setAll (if Fields.has idField element then
        [(idField, Fields.get idField element)] else []) made =
      if Fields.has idField element then
        Fields.lead idField (Fields.get idField element) made else made := by
    intro made ran
    have nodup := (ordered_run ran).nodup
    split
    · exact Fields.setAll_single nodup _ _
    · exact Fields.setAll_of_nodup nodup
  rw [Transform.shapeElement, bind_eq_ok]
  constructor
  · rintro ⟨output, ran, same⟩
    obtain ⟨made, rfl, _⟩ := ordered_run ran
    cases same
    exact ⟨made, ran, congrArg Value.object (overlaid made ran)⟩
  · rintro ⟨made, ran, rfl⟩
    exact ⟨_, ran, congrArg (Except.ok ∘ Value.object) (overlaid made ran)⟩

/-- **Fields come in the order of the rules.** The output of a configuration has the top-level names
that its rules wrote, in the order in which they wrote them and without later repeats. So has an
element that a nested configuration makes, except that the identifier, if the element has one, comes
first. -/
theorem fields_in_rule_order :
    (∀ (config : Config) (source output : Value), transform config source = .ok output →
      ∃ fields, output = .object fields ∧
        Fields.names fields = (config.topNames source).eraseDups) ∧
    ∀ (config : Config) (idField : String) (element : Fields) (shaped : Value),
      Transform.shapeElement (Transform.run config) idField element = .ok shaped →
      ∃ fields, shaped = .object fields ∧ Fields.names fields =
        if Fields.has idField element then
          idField :: (config.topNames (.object element)).eraseDups.filter (· ≠ idField)
        else (config.topNames (.object element)).eraseDups := by
  constructor
  · intro config source output made
    cases config with
    | rules rules => exact ordered_run made
    | misplaced v => cases made
  · intro config idField element shaped made
    obtain ⟨fields, ran, rfl⟩ := shapeElement_eq_ok.mp made
    obtain ⟨_, same, names⟩ := ordered_run ran
    cases same
    refine ⟨_, rfl, ?_⟩
    split
    · rw [Fields.names_lead, names]
    · exact names

/-- The field that is written twice keeps its first place, and each row starts with its
identifier. -/
theorem fields_in_rule_order_rows :
    let path (name : String) : Path := ⟨[.field name], name⟩
    let rows : Target := ⟨path "rows", rfl⟩
    let inner : Config := .rules [.several [path "v", path "id"]]
    let config : Config := .rules [.subtree ⟨path "n", rfl⟩, .reconcile rows inner "id",
      .merge ⟨[.field "more"], "more"⟩]
    let row : Fields := [("id", .int 1), ("v", .null)]
    let source : Value := .object [("rows", .list [.object row]),
      ("more", .object [("z", .int 3), ("n", .int 2)]), ("n", .int 1)]
    let shaped : Value := .object [("id", .int 1), ("v", .null)]
    let output : Value := .object [("n", .int 2), ("rows", .list [shaped]), ("z", .int 3)]
    transform config source = .ok output ∧
    Transform.shapeElement (Transform.run inner) "id" row = .ok shaped ∧
    (∃ fields, output = .object fields ∧ Fields.names fields = ["n", "rows", "z"]) ∧
    ∃ fields, shaped = .object fields ∧ Fields.names fields = ["id", "v"] := by
  intro path rows inner config row source shaped output
  have ran : transform config source = .ok output := by rfl
  have made : Transform.shapeElement (Transform.run inner) "id" row = .ok shaped := by rfl
  exact ⟨ran, made, fields_in_rule_order.1 _ _ _ ran, fields_in_rule_order.2 _ _ _ _ made⟩

end Recast
