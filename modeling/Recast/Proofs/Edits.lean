import Mathlib.Data.List.Forall2
import Recast.Proofs.Update
import Recast.Transform

/-!
Rules as lists of edits. What a rule writes depends on the source alone, so a rule is a list of
edits that is settled before the first of them is made, and a run makes the edits of its rules in
order.

* `applyRule_eq`: applying a rule is making its edits;
* `runRules_ok_iff`: a run succeeds exactly when every rule has its edits and all can be made;
* `edits_places`: the places that a rule writes to;
* `resolve_applyAll`: edits elsewhere leave what a path finds.
-/

namespace Recast

/-! ## Edits -/

/-- A value and the place in an output that it is written to. -/
structure Edit where
  path : Path
  value : Value

namespace Edit

def apply (output : Value) (e : Edit) : Outcome Value := (output.write e.path e.value).outcome

/-- An output after edits, made in order. -/
def applyAll (output : Value) (es : List Edit) : Outcome Value := es.foldlM apply output

@[simp] theorem applyAll_nil (output : Value) : applyAll output [] = .ok output := rfl

@[simp] theorem applyAll_cons (output : Value) (e : Edit) (es : List Edit) :
    applyAll output (e :: es) = e.apply output >>= fun next => applyAll next es := by
  simp [applyAll, List.foldlM]

theorem applyAll_append (output : Value) (es more : List Edit) :
    applyAll output (es ++ more) = applyAll output es >>= fun next => applyAll next more := by
  simp [applyAll, List.foldlM_append]

/-- The edit that copies what is at one path to another, if there is something. -/
def copying (source : Value) (start dest : Path) : List Edit :=
  if (source.resolve start.elements).isAbsent then []
  else [⟨dest, source.resolve start.elements⟩]

/-- The edit that sets a field of the output itself. -/
def setting (f : String × Value) : Edit := ⟨⟨[.field f.1], f.1⟩, f.2⟩

end Edit

/-- The edits of a rule that copies one value: none if there is no value, and one if the validators
accept it. -/
def FieldCopy.edits (c : FieldCopy) (source : Value) : Outcome (List Edit) :=
  let value := source.resolve c.source.elements
  if value.isAbsent && !c.requiresPresence then .ok []
  else do
    Validator.checkAll value c.source.text c.validators
    if value.isAbsent then return []
    else
      let value ← c.mapped value
      return [⟨c.dest, value⟩]

/-- The edits that a rule makes of a source. -/
def Rule.edits (source : Value) : Rule → Outcome (List Edit)
  | .single copy => copy.edits source
  | .several paths => do
    let _ ← paths.mapM fun p => FieldCopy.ofPaths p p
    return paths.flatMap fun p => Edit.copying source p p
  | .subtree path => .ok (Edit.copying source path path)
  | .merge path =>
    match source.resolve path.elements with
    | .absent => .ok []
    | .object fields => .ok (fields.map Edit.setting)
    | other => .error (.ofCause (.mergeOfNonObject other.describe) path.text)
  | .reconcile path config idField =>
    match source.resolve path.elements with
    | .absent => .ok []
    | .array _ items => do
      let shaped ← Transform.shapeElements (Transform.run config) idField path 0 items
      return [⟨path, .list shaped⟩]
    | other => .error (.ofCause (.arrayOfObjectsExpected other.describe) path.text)

/-! ## Applying a rule is making its edits -/

theorem Edit.applyAll_copying (source output : Value) (start dest : Path) :
    Edit.applyAll output (Edit.copying source start dest) =
      if (source.resolve start.elements).isAbsent then .ok output
      else (output.write dest (source.resolve start.elements)).outcome := by
  unfold Edit.copying
  split
  · rfl
  · simp [Edit.apply]

theorem FieldCopy.apply_eq (c : FieldCopy) (source output : Value) :
    c.apply source output = c.edits source >>= Edit.applyAll output := by
  simp only [FieldCopy.apply, FieldCopy.edits]
  split
  · rfl
  · cases Validator.checkAll _ c.source.text c.validators with
    | error e => rfl
    | ok _ =>
      simp only [ok_bind]
      split
      · rfl
      · cases c.mapped (source.resolve c.source.elements) with
        | error e => rfl
        | ok value => simp [Edit.apply]

theorem FieldCopy.ofPaths_ok {start dest : Path} {c : FieldCopy}
    (h : FieldCopy.ofPaths start dest = .ok c) :
    c.source.path = start ∧ c.dest.path = dest ∧ c.validators = [] ∧ c.mapper = none := by
  unfold FieldCopy.ofPaths at h
  obtain ⟨s, hs, h⟩ := bind_eq_ok.mp h
  obtain ⟨d, hd, h⟩ := bind_eq_ok.mp h
  unfold Target.ofPath at hs hd
  split at hs <;> cases hs
  split at hd <;> cases hd
  cases h
  exact ⟨rfl, rfl, rfl, rfl⟩

theorem FieldCopy.edits_plain {c : FieldCopy} (validators : c.validators = [])
    (mapper : c.mapper = none) (source : Value) :
    c.edits source = .ok (Edit.copying source c.source c.dest) := by
  simp only [FieldCopy.edits, FieldCopy.requiresPresence, validators, FieldCopy.mapped, mapper,
    Edit.copying, Target.elements, Validator.checkAll]
  split
  · rename_i absent
    simp only [List.any_nil, Bool.not_false, Bool.and_true] at absent
    simp [absent]
  · rename_i present
    simp only [List.any_nil, Bool.not_false, Bool.and_true] at present
    simp [present]

theorem copyFields_eq (paths : List Path) (source output : Value) :
    Transform.copyFields paths source output =
      (Rule.several paths).edits source >>= Edit.applyAll output := by
  have copied : ∀ copies, (paths.mapM fun p => FieldCopy.ofPaths p p) = .ok copies →
      ∀ output : Value, copies.foldlM (fun output c => c.apply source output) output =
        Edit.applyAll output (paths.flatMap fun p => Edit.copying source p p) := by
    induction paths with
    | nil =>
      intro copies h
      cases h
      intro output
      rfl
    | cons p rest ih =>
      intro copies h output
      rw [List.mapM_cons] at h
      obtain ⟨c, first, h⟩ := bind_eq_ok.mp h
      obtain ⟨others, more, h⟩ := bind_eq_ok.mp h
      cases h
      obtain ⟨start, dest, validators, mapper⟩ := FieldCopy.ofPaths_ok first
      rw [List.foldlM_cons, List.flatMap_cons, Edit.applyAll_append, FieldCopy.apply_eq,
        FieldCopy.edits_plain validators mapper, start, dest]
      simp only [ok_bind, ih others more]
  simp only [Transform.copyFields, Rule.edits]
  cases h : paths.mapM fun p => FieldCopy.ofPaths p p with
  | error e => rfl
  | ok copies => exact copied copies h output

theorem applyAll_setting (fields more : Fields) :
    Edit.applyAll (.object fields) (more.map Edit.setting) =
      .ok (.object (Fields.setAll fields more)) := by
  induction more generalizing fields with
  | nil => rfl
  | cons f rest ih =>
    have made : (Edit.setting f).apply (.object fields) =
        .ok (.object (Fields.set f.1 f.2 fields)) := rfl
    rw [List.map_cons, Edit.applyAll_cons, made, ok_bind, ih]
    rfl

/-- **A rule is its edits.** They depend on the source alone. -/
theorem applyRule_eq (rule : Rule) (source : Value) {output : Value}
    (object : output.isObject = true) :
    Transform.applyRule rule source output = rule.edits source >>= Edit.applyAll output := by
  cases rule with
  | single copy => exact FieldCopy.apply_eq copy source output
  | several paths => exact copyFields_eq paths source output
  | subtree path =>
    simp only [Transform.applyRule, Transform.copySubtree, Rule.edits, ok_bind,
      Edit.applyAll_copying]
    rfl
  | merge path =>
    obtain ⟨fields, rfl⟩ := Value.isObject_iff.mp object
    simp only [Transform.applyRule, Transform.mergeObject, Rule.edits]
    cases source.resolve path.elements with
    | absent => rfl
    | object more => exact (applyAll_setting fields more).symm
    | _ => rfl
  | reconcile path config idField =>
    simp only [Transform.applyRule, Transform.copyArray, Rule.edits, Target.elements]
    cases source.resolve path.path.elements with
    | absent => rfl
    | array fixed items =>
      cases h : Transform.shapeElements (Transform.run config) idField path 0 items with
      | error e =>
        simp [h]
      | ok shaped => simp [h, Edit.apply]
    | _ => rfl

/-- What each edit preserves, all of them in order preserve. -/
theorem Edit.applyAll_induct {motive : Value → Prop} {output after : Value} {es : List Edit}
    (step : ∀ e ∈ es, ∀ reached next, motive reached → e.apply reached = .ok next → motive next)
    (start : motive output) (h : Edit.applyAll output es = .ok after) : motive after := by
  induction es generalizing output with
  | nil =>
    cases h
    exact start
  | cons e rest ih =>
    obtain ⟨here, step⟩ := List.forall_mem_cons.mp step
    rw [Edit.applyAll_cons] at h
    obtain ⟨next, made, h⟩ := bind_eq_ok.mp h
    exact ih step (here output next start made) h

theorem isObject_of_apply {output after : Value} {e : Edit} (object : output.isObject = true)
    (h : e.apply output = .ok after) : after.isObject = true := by
  obtain ⟨⟨first, rest, elements, suits⟩, updated⟩ := Value.write_ok_iff.mp h
  have written : after.suits first = true := by
    rw [elements] at updated
    exact Value.suits_resolve_update (q := []) updated
  rcases Value.suits_iff.mp suits with ⟨name, fields, rfl, rfl⟩ | ⟨n, items, rfl, rfl⟩
  · exact written
  · cases object

theorem isObject_of_applyAll {output after : Value} {es : List Edit}
    (object : output.isObject = true) (h : Edit.applyAll output es = .ok after) :
    after.isObject = true :=
  Edit.applyAll_induct (fun _ _ _ _ object made => isObject_of_apply object made) object h

/-- A run succeeds exactly when every rule has its edits and all of them can be made in order. -/
theorem runRules_ok_iff {rules : List Rule} {index : Nat} {source output after : Value}
    (object : output.isObject = true) :
    Transform.runRules rules index source output = .ok after ↔
      ∃ edits, List.Forall₂ (fun rule es => rule.edits source = .ok es) rules edits ∧
        Edit.applyAll output edits.flatten = .ok after := by
  induction rules generalizing index output with
  | nil => simp [Transform.runRules]
  | cons rule rest ih =>
    simp only [Transform.runRules, bind_eq_ok, Outcome.mapFault_eq_ok,
      applyRule_eq rule source object]
    constructor
    · rintro ⟨next, ⟨es, made, applied⟩, h⟩
      obtain ⟨edits, others, applied'⟩ := (ih (isObject_of_applyAll object applied)).mp h
      refine ⟨es :: edits, List.Forall₂.cons made others, ?_⟩
      rw [List.flatten_cons, Edit.applyAll_append, applied]
      exact applied'
    · rintro ⟨edits, all, applied⟩
      obtain ⟨es, edits, made, others, rfl⟩ := List.forall₂_cons_left_iff.mp all
      rw [List.flatten_cons, Edit.applyAll_append] at applied
      obtain ⟨next, applied, applied'⟩ := bind_eq_ok.mp applied
      exact ⟨next, ⟨es, made, applied⟩,
        (ih (isObject_of_applyAll object applied)).mpr ⟨edits, others, applied'⟩⟩

theorem isObject_of_runRules {rules : List Rule} {index : Nat} {source output after : Value}
    (object : output.isObject = true)
    (h : Transform.runRules rules index source output = .ok after) : after.isObject = true := by
  obtain ⟨edits, _, applied⟩ := (runRules_ok_iff object).mp h
  exact isObject_of_applyAll object applied

/-- An edit of a run is one of some rule's. -/
theorem exists_rule_of_mem {rules : List Rule} {source : Value} {edits : List (List Edit)}
    (all : List.Forall₂ (fun rule es => rule.edits source = .ok es) rules edits) {e : Edit}
    (he : e ∈ edits.flatten) : ∃ rule ∈ rules, ∃ es, rule.edits source = .ok es ∧ e ∈ es := by
  obtain ⟨es, hes, he⟩ := List.mem_flatten.mp he
  obtain ⟨n, inside, rfl⟩ := List.mem_iff_getElem.mp hes
  have inside' : n < rules.length := by
    rw [all.length_eq]
    exact inside
  exact ⟨rules[n], List.getElem_mem inside', edits[n], all.get inside' inside, he⟩

/-! ## Where a rule writes -/

/-- The paths that a rule names. -/
def Rule.paths : Rule → List Path
  | .single copy => [copy.source.path, copy.dest.path]
  | .several paths => paths
  | .subtree path | .reconcile path _ _ => [path.path]
  | .merge path => [path]

/-- The places that a rule writes to, in order: none where there is nothing to copy, and for a rule
that merges an object each of the object's fields. -/
def Rule.places (source : Value) : Rule → List (List Element)
  | .single copy =>
    if (source.resolve copy.source.elements).isAbsent then [] else [copy.dest.elements]
  | .several paths =>
    (paths.filter fun p => !(source.resolve p.elements).isAbsent).map (·.elements)
  | .subtree path => if (source.resolve path.elements).isAbsent then [] else [path.elements]
  | .merge path => (source.resolve path.elements).fields.map fun f => [.field f.1]
  | .reconcile path _ _ => if (source.resolve path.elements).isAbsent then [] else [path.elements]

/-- A rule writes to the paths that it names, or to fields of the output itself. -/
theorem path_of_place {rule : Rule} {source : Value} {place : List Element}
    (mem : place ∈ rule.places source) :
    (∃ p ∈ rule.paths, p.elements = place) ∨ ∃ name, place = [.field name] := by
  cases rule with
  | single copy =>
    simp only [Rule.places] at mem
    split at mem
    · cases mem
    · exact Or.inl ⟨copy.dest, by simp [Rule.paths], (List.mem_singleton.mp mem).symm⟩
  | several paths =>
    obtain ⟨p, inside, same⟩ := List.mem_map.mp mem
    exact Or.inl ⟨p, (List.mem_filter.mp inside).1, same⟩
  | merge path =>
    obtain ⟨f, _, rfl⟩ := List.mem_map.mp mem
    exact Or.inr ⟨f.1, rfl⟩
  | subtree path | reconcile path =>
    simp only [Rule.places] at mem
    split at mem
    · cases mem
    · exact Or.inl ⟨path, by simp [Rule.paths], (List.mem_singleton.mp mem).symm⟩

theorem copying_places (source : Value) (start dest : Path) :
    (Edit.copying source start dest).map (·.path.elements) =
      if (source.resolve start.elements).isAbsent then [] else [dest.elements] := by
  unfold Edit.copying
  split <;> rfl

theorem FieldCopy.edits_ok {c : FieldCopy} {source : Value} {es : List Edit}
    (h : c.edits source = .ok es) :
    (source.resolve c.source.elements).isAbsent = true ∧ es = [] ∨
      (source.resolve c.source.elements).isAbsent = false ∧
        ∃ w, c.mapped (source.resolve c.source.elements) = .ok w ∧ es = [⟨c.dest, w⟩] := by
  unfold FieldCopy.edits at h
  cases absent : (source.resolve c.source.elements).isAbsent with
  | true =>
    refine Or.inl ⟨rfl, ?_⟩
    simp only [absent] at h
    split at h
    · cases h
      rfl
    · obtain ⟨_, _, h⟩ := bind_eq_ok.mp h
      cases h
      rfl
  | false =>
    refine Or.inr ⟨rfl, ?_⟩
    simp only [absent, Bool.false_and, Bool.false_eq_true, if_false] at h
    obtain ⟨_, _, h⟩ := bind_eq_ok.mp h
    obtain ⟨w, mapped, h⟩ := bind_eq_ok.mp h
    cases h
    exact ⟨w, mapped, rfl⟩

theorem edits_places {rule : Rule} {source : Value} {es : List Edit}
    (h : rule.edits source = .ok es) : es.map (·.path.elements) = rule.places source := by
  cases rule with
  | single copy =>
    rcases FieldCopy.edits_ok h with ⟨absent, rfl⟩ | ⟨present, w, _, rfl⟩
    · simp [Rule.places, absent]
    · simp only [Rule.places, present]
      rfl
  | several paths =>
    obtain ⟨_, _, h⟩ := bind_eq_ok.mp h
    cases h
    clear * -
    induction paths with
    | nil => rfl
    | cons p rest ih =>
      simp only [Rule.places] at ih
      rw [List.flatMap_cons, List.map_append, copying_places, ih]
      cases absent : (source.resolve p.elements).isAbsent <;> simp [Rule.places, absent]
  | subtree path =>
    cases h
    exact copying_places source path path
  | merge path =>
    simp only [Rule.edits] at h
    split at h
    · rename_i found
      cases h
      simp [Rule.places, found, Value.fields]
    · rename_i fields found
      cases h
      simp [Rule.places, found, Value.fields, Edit.setting]
    · cases h
  | reconcile path config idField =>
    simp only [Rule.edits] at h
    split at h
    · rename_i found
      cases h
      simp [Rule.places, found, Value.isAbsent]
    · rename_i items found
      obtain ⟨shaped, _, h⟩ := bind_eq_ok.mp h
      cases h
      simp only [Rule.places, found]
      rfl
    · cases h

/-- Edits leave what a path finds when all of them part from it at accessors of the same kind. -/
theorem resolve_applyAll {output after : Value} {es : List Edit} {q : List Element}
    (h : Edit.applyAll output es = .ok after)
    (apart : ∀ e ∈ es, Diverge e.path.elements q) (loose : Value.Loose q output) :
    after.resolve q = output.resolve q ∧ Value.Loose q after := by
  refine Edit.applyAll_induct (motive := fun v => v.resolve q = output.resolve q ∧ Value.Loose q v)
    (fun e he reached next kept made => ?_) ⟨rfl, loose⟩ h
  have updated := (Value.write_ok_iff.mp made).2
  obtain ⟨same, loose⟩ := Value.resolve_update_of_diverge updated (apart e he) kept.2
  exact ⟨same.trans kept.1, loose⟩

end Recast
