import Recast.Proofs.FieldOrder
import Recast.Proofs.Rearranged

/-!
Rules that can be exchanged. Two rules that each copy one value, to places that first differ at
fields, can be run in either order: the same containers are made on the way to both places, and the
outputs differ in the order of fields at most.

* `update_swap`, `apply_swap`: two writes;
* `applyAll_swap`: the edits of two rules;
* `run_exchanged`: two adjacent rules, with others before and behind them, in a configuration or in
  one that is nested in it;
* `transform_exchanged`: both orders fail, or both succeed.
-/

namespace Recast

/-- Two paths first differ where both have a field. -/
def PartAtFields (p q : List Element) : Prop :=
  ∃ common name other rest others, p = common ++ .field name :: rest ∧
    q = common ++ .field other :: others ∧ name ≠ other

theorem PartAtFields.symm {p q : List Element} (h : PartAtFields p q) : PartAtFields q p := by
  obtain ⟨common, name, other, rest, others, left, right, differ⟩ := h
  exact ⟨common, other, name, others, rest, right, left, differ.symm⟩

namespace Value

/-! ## Two writes -/

/-- A write below a field keeps the fields of an object, and makes an object of anything else. -/
theorem update_field {name : String} {rest : List Element} {v old new : Value} :
    update v (.field name :: rest) old = some new ↔
      ∃ x, update v rest (Fields.get name old.fields) = some x ∧
        .object (Fields.set name x old.fields) = new := by
  have entered : enter (.field name) old = .object old.fields := by cases old <;> rfl
  rw [update_cons, entered]
  exact and_iff_right rfl

/-- Two fields of an object can be set in either order. -/
theorem rearranged_set_set {name other : String} (differ : name ≠ other) (x y : Value)
    (fields : Fields) :
    Rearranged (.object (Fields.set other y (Fields.set name x fields)))
      (.object (Fields.set name x (Fields.set other y fields))) := by
  constructor
  · rw [Fields.names_set, Fields.names_set, Fields.names_set, Fields.names_set,
      Fields.has_set_of_ne differ.symm, Fields.has_set_of_ne differ]
    by_cases known : Fields.has name fields <;> by_cases known' : Fields.has other fields
    · simp [known, known']
    · simp [known, known']
    · simp [known, known']
    · simp only [known, known', Bool.false_eq_true, if_false, List.append_assoc,
        List.singleton_append]
      exact (List.Perm.swap other name []).append_left _
  · intro key
    by_cases first : key = name
    · subst first
      rw [Fields.get_set_of_ne differ, Fields.get_set_self, Fields.get_set_self]
      exact .refl x
    · by_cases second : key = other
      · subst second
        rw [Fields.get_set_self, Fields.get_set_of_ne first, Fields.get_set_self]
        exact .refl y
      · rw [Fields.get_set_of_ne second, Fields.get_set_of_ne first, Fields.get_set_of_ne first,
          Fields.get_set_of_ne second]
        exact .refl _

/-- **Two writes.** Where their places part at fields, they can be made in either order. -/
theorem update_swap {v w old next after : Value} {p q : List Element} (part : PartAtFields p q)
    (first : update v p old = some next) (second : update w q next = some after) :
    ∃ other after', update w q old = some other ∧ update v p other = some after' ∧
      Rearranged after after' := by
  obtain ⟨common, name, other, rest, others, rfl, rfl, differ⟩ := part
  induction common generalizing old next after with
  | nil =>
    obtain ⟨x, below, rfl⟩ := update_field.mp first
    obtain ⟨y, below', rfl⟩ := update_field.mp second
    simp only [fields, Fields.get_set_of_ne differ.symm] at below'
    refine ⟨_, _, update_field.mpr ⟨y, below', rfl⟩, update_field.mpr ⟨x, ?_, rfl⟩, ?_⟩
    · simpa only [fields, Fields.get_set_of_ne differ] using below
    · exact rearranged_set_set differ x y old.fields
  | cons e common ih =>
    -- The second write enters what the first has placed, so both are writes to one container.
    obtain ⟨admitted, x, below, rfl⟩ := update_cons.mp first
    obtain ⟨y, below', rfl⟩ := (update_place admitted).mp second
    obtain ⟨x', y', inner, inner', related⟩ := ih below below'
    refine ⟨_, _, update_cons.mpr ⟨admitted, x', inner, rfl⟩,
      (update_place admitted).mpr ⟨y', inner', rfl⟩, ?_⟩
    exact (Rearranged.refl (enter e old)).place related admitted

end Value

open Value (Rearranged)

theorem PartAtFields.suits {first first' : Element} {rest others : List Element}
    (part : PartAtFields (first :: rest) (first' :: others)) (v : Value) :
    v.suits first = v.suits first' := by
  obtain ⟨common, name, other, _, _, left, right, _⟩ := part
  cases common with
  | nil =>
    cases left
    cases right
    rfl
  | cons e common =>
    cases left
    cases right
    rfl

/-- Two edits whose places part at fields can be made in either order. -/
theorem apply_swap {a b : Edit} {output next after : Value}
    (part : PartAtFields a.path.elements b.path.elements) (first : a.apply output = .ok next)
    (second : b.apply next = .ok after) :
    ∃ other after', b.apply output = .ok other ∧ a.apply other = .ok after' ∧
      Rearranged after after' := by
  obtain ⟨⟨e, rest, elements, suits⟩, updated⟩ := Value.write_ok_iff.mp first
  obtain ⟨⟨f, others, elements', _⟩, updated'⟩ := Value.write_ok_iff.mp second
  obtain ⟨other, after', swapped, swapped', related⟩ := Value.update_swap part updated updated'
  rw [elements, elements'] at part
  have here : output.suits f = true := part.suits output ▸ suits
  have there : other.suits e = true := by
    rw [elements'] at swapped
    rw [part.suits other]
    exact Value.suits_resolve_update (q := []) swapped
  exact ⟨other, after', Value.write_ok_iff.mpr ⟨⟨f, others, elements', here⟩, swapped⟩,
    Value.write_ok_iff.mpr ⟨⟨e, rest, elements, there⟩, swapped'⟩, related⟩

/-! ## Two rules -/

/-- A rule that copies one value makes one edit at most, at its destination. -/
theorem edits_of_ends {rule : Rule} {source : Value} {start dest : Target} {es : List Edit}
    (ends : rule.ends? = some (start, dest)) (h : rule.edits source = .ok es) :
    es = [] ∨ ∃ v, es = [⟨dest, v⟩] := by
  cases absent : (source.resolve start.elements).isAbsent with
  | true =>
    have places := edits_places h
    have nowhere : rule.places source = [] := by
      cases rule <;> cases ends <;> exact if_pos absent
    rw [nowhere, List.map_eq_nil_iff] at places
    exact Or.inl places
  | false =>
    obtain ⟨v, _, made⟩ := edits_of_present ends absent h
    exact Or.inr ⟨v, made⟩

theorem applyAll_swap {p q : Target} {es fs : List Edit} {output after : Value}
    (part : PartAtFields p.elements q.elements) (left : es = [] ∨ ∃ v, es = [⟨p, v⟩])
    (right : fs = [] ∨ ∃ w, fs = [⟨q, w⟩]) (made : Edit.applyAll output (es ++ fs) = .ok after) :
    ∃ other, Edit.applyAll output (fs ++ es) = .ok other ∧ Rearranged after other := by
  rcases left with rfl | ⟨v, rfl⟩
  · rw [List.append_nil]
    exact ⟨after, made, .refl after⟩
  · rcases right with rfl | ⟨w, rfl⟩
    · exact ⟨after, made, .refl after⟩
    · rw [Edit.applyAll_append] at made
      obtain ⟨next, first, second⟩ := bind_eq_ok.mp made
      simp only [Edit.applyAll_cons, Edit.applyAll_nil, bind_ok] at first second
      obtain ⟨other, after', swapped, swapped', related⟩ := apply_swap part first second
      refine ⟨after', ?_, related⟩
      rw [Edit.applyAll_append]
      simp only [Edit.applyAll_cons, Edit.applyAll_nil, bind_ok]
      exact bind_eq_ok.mpr ⟨other, swapped, swapped'⟩

/-- **Two rules.** Where their destinations part at fields, they can be run in either order. -/
theorem runRules_swap {first second : Rule} {start dest start' dest' : Target}
    (ends : first.ends? = some (start, dest)) (ends' : second.ends? = some (start', dest'))
    (part : PartAtFields dest.elements dest'.elements) {index : Nat} {source output after : Value}
    (object : output.isObject = true)
    (ran : Transform.runRules [first, second] index source output = .ok after) :
    ∃ other, Transform.runRules [second, first] index source output = .ok other ∧
      Rearranged after other := by
  obtain ⟨edits, both, made⟩ := (runRules_ok_iff object).mp ran
  obtain ⟨es, _, edited, one, rfl⟩ := List.forall₂_cons_left_iff.mp both
  obtain ⟨fs, _, edited', rest, rfl⟩ := List.forall₂_cons_left_iff.mp one
  cases rest
  simp only [List.flatten_cons, List.flatten_nil, List.append_nil] at made
  obtain ⟨other, swapped, related⟩ :=
    applyAll_swap part (edits_of_ends ends edited) (edits_of_ends ends' edited') made
  refine ⟨other, (runRules_ok_iff object).mpr ⟨[fs, es], ?_, by simpa using swapped⟩, related⟩
  exact .cons edited' (.cons edited .nil)

/-! ## Configurations -/

/-- Of whatever source one configuration makes an output, the other makes one that differs from it
in the order of object fields at most. -/
def Config.Rearranges (config config' : Config) : Prop :=
  ∀ source output, Transform.run config source = .ok output →
    ∃ other, Transform.run config' source = .ok other ∧ Rearranged output other

/-- **Frame.** Rules in the middle of a run may be replaced by others that do as they do. -/
theorem rearranges_of_middle {middle middle' : List Rule}
    (step : ∀ index source output next, output.isObject = true →
      Transform.runRules middle index source output = .ok next →
      ∃ other, Transform.runRules middle' index source output = .ok other ∧ Rearranged next other)
    (before after : List Rule) :
    Config.Rearranges (.rules (before ++ middle ++ after))
      (.rules (before ++ middle' ++ after)) := by
  intro source output ran
  rw [Transform.run, runRules_append] at ran
  obtain ⟨next, ran, later⟩ := bind_eq_ok.mp ran
  rw [runRules_append] at ran
  obtain ⟨reached, first, ran⟩ := bind_eq_ok.mp ran
  have object : reached.isObject = true := isObject_of_runRules rfl first
  obtain ⟨next', ran', related⟩ := step _ source reached next object ran
  have whole : Transform.runRules (before ++ middle') 0 source (.object []) = .ok next' := by
    rw [runRules_append]
    exact bind_eq_ok.mpr ⟨reached, first, ran'⟩
  obtain ⟨other, later', related⟩ :=
    runRules_rearranged (0 + (before ++ middle').length) (isObject_of_runRules object ran) related
      later
  refine ⟨other, ?_, related⟩
  rw [Transform.run, runRules_append]
  exact bind_eq_ok.mpr ⟨next', whole, later'⟩

/-! ## Nested configurations -/

theorem rearranged_lead {fields others : Fields}
    (h : Rearranged (.object fields) (.object others)) (name : String) (v : Value) :
    Rearranged (.object (Fields.lead name v fields)) (.object (Fields.lead name v others)) := by
  obtain ⟨_, same, names, members⟩ := h.exists_object
  cases same
  constructor
  · rw [Fields.names_lead, Fields.names_lead]
    exact (names.filter _).cons name
  · intro other
    by_cases here : other = name
    · subst here
      rw [Fields.get_lead_self, Fields.get_lead_self, Fields.has_of_perm names]
      split
      · exact members other
      · exact .refl v
    · rw [Fields.get_lead_of_ne here, Fields.get_lead_of_ne here]
      exact members other

theorem rearranged_cons {v w : Value} {items others : List Value} (first : Rearranged v w)
    (rest : Rearranged (.list items) (.list others)) :
    Rearranged (.list (v :: items)) (.list (w :: others)) := by
  obtain ⟨_, same, length, members⟩ := rest.exists_list
  cases same
  refine .array (by simp [length]) fun n => ?_
  cases n with
  | zero => exact first
  | succ n => exact members n

section
variable {config config' : Config} (h : config.Rearranges config') {idField : String}
include h

theorem shapeElement_rearranged {element : Fields} {shaped : Value}
    (made : Transform.shapeElement (Transform.run config) idField element = .ok shaped) :
    ∃ other, Transform.shapeElement (Transform.run config') idField element = .ok other ∧
      Rearranged shaped other := by
  obtain ⟨fields, ran, rfl⟩ := shapeElement_eq_ok.mp made
  obtain ⟨_, ran', related⟩ := h _ _ ran
  obtain ⟨others, rfl, _, _⟩ := related.exists_object
  refine ⟨_, shapeElement_eq_ok.mpr ⟨others, ran', rfl⟩, ?_⟩
  split
  · exact rearranged_lead related idField _
  · exact related

theorem shapeElements_rearranged {path : Target} {n : Nat} {items shaped : List Value}
    (made : Transform.shapeElements (Transform.run config) idField path n items = .ok shaped) :
    ∃ others, Transform.shapeElements (Transform.run config') idField path n items = .ok others ∧
      Rearranged (.list shaped) (.list others) := by
  induction items generalizing n shaped with
  | nil =>
    cases made
    exact ⟨[], rfl, .refl _⟩
  | cons element rest ih =>
    cases element with
    | object fields =>
      obtain ⟨first, shaping, made⟩ := bind_eq_ok.mp made
      obtain ⟨later, more, made⟩ := bind_eq_ok.mp made
      cases made
      obtain ⟨first', shaping', related⟩ :=
        shapeElement_rearranged h (Outcome.mapFault_eq_ok.mp shaping)
      obtain ⟨later', more', related'⟩ := ih more
      refine ⟨first' :: later', ?_, rearranged_cons related related'⟩
      exact bind_eq_ok.mpr ⟨first', Outcome.mapFault_eq_ok.mpr shaping',
        bind_eq_ok.mpr ⟨later', more', rfl⟩⟩
    | _ => cases made

/-- The edits of a rule that copies an array of objects, shaped by the one configuration or by the
other. -/
theorem edits_rearranged {path : Target} {source : Value} {es : List Edit}
    (edited : (Rule.reconcile path config idField).edits source = .ok es) :
    ∃ fs, (Rule.reconcile path config' idField).edits source = .ok fs ∧
      List.Forall₂ Edit.Rearranged es fs := by
  simp only [Rule.edits] at edited ⊢
  split at edited
  · cases edited
    exact ⟨[], rfl, .nil⟩
  · obtain ⟨shaped, shapes, edited⟩ := bind_eq_ok.mp edited
    cases edited
    obtain ⟨others, shapes', related⟩ := shapeElements_rearranged h shapes
    exact ⟨_, bind_eq_ok.mpr ⟨others, shapes', rfl⟩, .cons ⟨rfl, related⟩ .nil⟩
  · cases edited

theorem runRules_reconcile_rearranged {path : Target} {index : Nat} {source output after : Value}
    (object : output.isObject = true)
    (ran : Transform.runRules [.reconcile path config idField] index source output = .ok after) :
    ∃ other, Transform.runRules [.reconcile path config' idField] index source output = .ok other ∧
      Rearranged after other := by
  obtain ⟨edits, one, made⟩ := (runRules_ok_iff object).mp ran
  obtain ⟨es, _, edited, rest, rfl⟩ := List.forall₂_cons_left_iff.mp one
  cases rest
  obtain ⟨fs, edited', related⟩ := edits_rearranged h edited
  rw [List.flatten_cons, List.flatten_nil, List.append_nil] at made
  obtain ⟨other, made', related⟩ := applyAll_rearranged related (.refl output) made
  refine ⟨other, (runRules_ok_iff object).mpr ⟨[fs], .cons edited' .nil, ?_⟩, related⟩
  rwa [List.flatten_cons, List.flatten_nil, List.append_nil]

end

/-! ## Exchanging two rules -/

/-- Two configurations differ in the order of two adjacent rules, each of which copies one value, to
places that part at fields. The rules are the configuration's own, or those of a configuration that
is nested in it. -/
inductive Exchanged : Config → Config → Prop where
  | here {first second : Rule} {start dest start' dest' : Target} (before after : List Rule)
      (ends : first.ends? = some (start, dest)) (ends' : second.ends? = some (start', dest'))
      (part : PartAtFields dest.elements dest'.elements) :
      Exchanged (.rules (before ++ [first, second] ++ after))
        (.rules (before ++ [second, first] ++ after))
  | inside {config config' : Config} (before after : List Rule) (path : Target) (idField : String)
      (inner : Exchanged config config') :
      Exchanged (.rules (before ++ [.reconcile path config idField] ++ after))
        (.rules (before ++ [.reconcile path config' idField] ++ after))

theorem Exchanged.symm {config config' : Config} (h : Exchanged config config') :
    Exchanged config' config := by
  induction h with
  | here before after ends ends' part => exact .here before after ends' ends part.symm
  | inside before after path idField _ ih => exact .inside before after path idField ih

theorem run_exchanged {config config' : Config} (h : Exchanged config config') :
    config.Rearranges config' := by
  induction h with
  | here before after ends ends' part =>
    apply rearranges_of_middle
    intro index source output next object ran
    exact runRules_swap ends ends' part object ran
  | inside before after path idField _ ih =>
    apply rearranges_of_middle
    intro index source output next object ran
    exact runRules_reconcile_rearranged ih object ran

/-- **Independent rules commute.** Take a configuration and exchange two adjacent rules, each of
which copies one value, if their destinations first differ where both have a field. Of every source
either both configurations fail to make an output, or both make one, and the two differ in the order
of object fields at most. So they are strictly equal, if they are JSON without NaN. -/
theorem transform_exchanged {config config' : Config} (h : Exchanged config config')
    (source : Value) :
    (∃ output output', transform config source = .ok output ∧
      transform config' source = .ok output' ∧ Rearranged output output' ∧
      (output.isJson = true → output.nanFree = true → Value.strictEq output output' = .ok true)) ∨
    ∃ e e', transform config source = .error e ∧ transform config' source = .error e' := by
  have runs : ∀ {c c' : Config}, Exchanged c c' → transform c source = Transform.run c source := by
    intro c c' exchanged
    cases exchanged <;> rfl
  rw [runs h, runs h.symm]
  cases ran : Transform.run config source with
  | ok output =>
    obtain ⟨output', ran', related⟩ := run_exchanged h source output ran
    refine Or.inl ⟨output, output', rfl, ran', related, ?_⟩
    intro json free
    exact (related.alike json free).equal
  | error e =>
    cases ran' : Transform.run config' source with
    | ok output' =>
      obtain ⟨output, back, _⟩ := run_exchanged h.symm source output' ran'
      rw [ran] at back
      cases back
    | error e' => exact Or.inr ⟨e, e', rfl, rfl⟩

/-- Two fields of a row that is made for the first of them. -/
theorem transform_exchanged_row :
    let first : Rule := .single
      { source := ⟨⟨[.field "a"], "a"⟩, rfl⟩
        dest := ⟨⟨[.field "rows", .index 0, .field "x"], "rows[0].x"⟩, rfl⟩ }
    let second : Rule := .single
      { source := ⟨⟨[.field "b"], "b"⟩, rfl⟩
        dest := ⟨⟨[.field "rows", .index 0, .field "y"], "rows[0].y"⟩, rfl⟩ }
    let last : Rule := .subtree ⟨⟨[.field "c"], "c"⟩, rfl⟩
    let config : Config := .rules [first, second, last]
    let config' : Config := .rules [second, first, last]
    let source : Value := .object [("a", .int 1), ("b", .int 2), ("c", .null)]
    let output : Value :=
      .object [("rows", .list [.object [("x", .int 1), ("y", .int 2)]]), ("c", .null)]
    let output' : Value :=
      .object [("rows", .list [.object [("y", .int 2), ("x", .int 1)]]), ("c", .null)]
    Exchanged config config' ∧ transform config source = .ok output ∧
      transform config' source = .ok output' ∧ Rearranged output output' := by
  intro first second last config config' source output output'
  have exchanged : Exchanged config config' :=
    .here [] [last] rfl rfl
      ⟨[.field "rows", .index 0], "x", "y", [], [], rfl, rfl, by decide⟩
  have ran : transform config source = .ok output := by rfl
  have ran' : transform config' source = .ok output' := by rfl
  refine ⟨exchanged, ran, ran', ?_⟩
  rcases transform_exchanged exchanged source with
    ⟨_, _, made, made', related, _⟩ | ⟨_, _, failed, _⟩
  · obtain rfl := Except.ok.inj (ran.symm.trans made)
    obtain rfl := Except.ok.inj (ran'.symm.trans made')
    exact related
  · cases ran.symm.trans failed

end Recast
