import Recast.Proofs.AlikeRuns
import Recast.Proofs.FieldOrder

/-!
Elements with their identifier in front, as runs. The rules of a nested configuration build an
output of their own, and the element's identifier is put in front of it. This is what the rules
would build behind a rule that copies the identifier first, as long as no rule writes inside the
identifier (`shapeElement_eq_run`); a rule that does finds nothing of it
(`shapeElement_loses_member`). The step law is `apply_led`: of two outputs, one of which has the
identifier in front, an edit makes two such outputs again, or fails on both alike.
-/

namespace Recast

/-! ## Two outputs in step -/

/-- Places spare an identifier: the first of them that is at or below its field is the field itself,
or goes on into something of which the identifier has no more than an empty container. -/
def Spares (idField : String) (id : Value) (places : List (List Element)) : Prop :=
  ∀ next rest, places.find? (topName? · = some idField) = some (.field idField :: next :: rest) →
    Value.enter next id = Value.empty next

/-- An identifier that is no container is always spared. -/
theorem spares_of_isScalar {id : Value} (scalar : id.isScalar = true) (idField : String)
    (places : List (List Element)) : Spares idField id places := by
  intro next _ _
  cases next <;> cases id <;> first | rfl | cases scalar

theorem Spares.of_cons {idField name : String} {id : Value} {place : List Element}
    {later : List (List Element)} (h : Spares idField id (place :: later))
    (top : topName? place = some name) (other : name ≠ idField) : Spares idField id later := by
  intro next rest first
  refine h next rest ?_
  rw [List.find?_cons_of_neg (by simpa [top] using other), first]

/-- Two outputs that differ only in an identifier that the second has in front. The first has
written its own, or the places still to be written spare the one in front. -/
def Led (idField : String) (id : Value) (later : List (List Element)) (a b : Value) : Prop :=
  ∃ fields, a = .object fields ∧ b = .object (Fields.lead idField id fields) ∧
    (Fields.has idField fields = true ∨ Spares idField id later)

/-- A write below a field of an object depends on what it enters there alone. -/
theorem put_into_objects {name : String} {rest : List Element} {v : Value} {fields others : Fields}
    (same : ∀ next more, rest = next :: more →
      Value.enter next (Fields.get name fields) = Value.enter next (Fields.get name others)) :
    ∃ x failed,
      Value.put (.field name) rest v (.object fields) = (.object (Fields.set name x fields), failed) ∧
      Value.put (.field name) rest v (.object others) =
        (.object (Fields.set name x others), failed) := by
  cases rest with
  | nil => exact ⟨v, none, rfl, rfl⟩
  | cons next more =>
    have entered : ∀ fs : Fields, Value.put (.field name) (next :: more) v (.object fs) =
        (.object (Fields.set name
          (Value.put next more v (Value.enter next (Fields.get name fs))).1 fs),
          (Value.put next more v (Value.enter next (Fields.get name fs))).2) := fun _ => rfl
    refine ⟨_, _, entered fields, ?_⟩
    rw [entered others, same next more rfl]

section
variable {idField : String} {id : Value} {later : List (List Element)} {a b : Value}

/-- **An edit of both outputs.** It fails on both alike, or leaves two outputs that differ as they
did. -/
theorem apply_led {e : Edit} (led : Led idField id (e.path.elements :: later) a b) :
    Agree (Led idField id later) (e.apply a) (e.apply b) := by
  obtain ⟨fields, rfl, rfl, spared⟩ := led
  obtain ⟨path, v⟩ := e
  simp only [Edit.apply, Value.write]
  cases elements : path.elements with
  | nil => exact Agree.error _
  | cons first rest =>
    simp only [elements] at spared
    cases first with
    | index n => cases rest <;> exact Agree.error _
    | field name =>
      have same : ∀ next more, rest = next :: more → Value.enter next (Fields.get name fields) =
          Value.enter next (Fields.get name (Fields.lead idField id fields)) := by
        rintro next more rfl
        by_cases named : name = idField
        · subst named
          rw [Fields.get_lead_self]
          split
          · rfl
          · rename_i lacks
            have first := spared.resolve_left lacks next more
              (List.find?_cons_of_pos (by simp [topName?]))
            rw [first, Fields.get_of_not_has (by simpa using lacks)]
            cases next <;> rfl
        · rw [Fields.get_lead_of_ne named]
      obtain ⟨x, failed, put, put'⟩ := put_into_objects (v := v) same
      simp only [put, put']
      cases failed with
      | some cause => exact Agree.error _
      | none =>
        refine Agree.ok ⟨_, rfl, by rw [Fields.set_lead], ?_⟩
        rw [Fields.has_set_iff]
        by_cases named : name = idField
        · exact Or.inl (Or.inl named.symm)
        · exact spared.imp Or.inr fun spares => spares.of_cons rfl named

theorem applyAll_led {es : List Edit}
    (led : Led idField id (es.map (·.path.elements) ++ later) a b) :
    Agree (Led idField id later) (Edit.applyAll a es) (Edit.applyAll b es) := by
  induction es generalizing a b with
  | nil => exact Agree.ok led
  | cons e rest ih =>
    rw [Edit.applyAll_cons, Edit.applyAll_cons]
    exact (apply_led led).bind fun _ _ => ih

theorem Led.isObject (led : Led idField id later a b) : a.isObject = true ∧ b.isObject = true := by
  obtain ⟨fields, rfl, rfl, _⟩ := led
  exact ⟨rfl, rfl⟩

theorem applyRule_led {rule : Rule} {source : Value}
    (led : Led idField id (rule.places source ++ later) a b) :
    Agree (Led idField id later) (Transform.applyRule rule source a)
      (Transform.applyRule rule source b) := by
  obtain ⟨object, object'⟩ := led.isObject
  rw [applyRule_eq rule source object, applyRule_eq rule source object']
  cases made : rule.edits source with
  | error e => exact Agree.error e
  | ok es =>
    rw [← edits_places made] at led
    exact applyAll_led led

/-- **A run on both outputs.** -/
theorem runRules_led {rules : List Rule} {source : Value} (index : Nat)
    (led : Led idField id (rules.flatMap (·.places source)) a b) :
    Agree (Led idField id []) (Transform.runRules rules index source a)
      (Transform.runRules rules index source b) := by
  induction rules generalizing index a b with
  | nil => exact Agree.ok led
  | cons rule rest ih =>
    rw [Transform.runRules, Transform.runRules]
    exact ((applyRule_led led).mapFault _).bind fun _ _ => ih (index + 1)

end

/-! ## One rule later -/

/-- The fault as it is met by a rule one place further on. -/
def Fault.later (f : Fault) : Fault :=
  { f with ruleIndex := f.ruleIndex.map (· + 1), rulePath := f.rulePath.modifyHead (· + 1) }

theorem Outcome.mapFault_bind {α β : Type} (g : Fault → Fault) (x : Outcome α)
    (f : α → Outcome β) :
    Outcome.mapFault g (x >>= f) = x.mapFault g >>= fun a => (f a).mapFault g := by
  cases x <;> rfl

theorem Outcome.mapFault_under_succ {α : Type} (index : Nat) (x : Outcome α) :
    x.mapFault (Fault.under (index + 1)) =
      (x.mapFault (Fault.under index)).mapFault Fault.later := by
  cases x with
  | ok a => rfl
  | error e => cases e <;> rfl

/-- The index of the first rule of a run shows in its faults alone. -/
theorem runRules_succ (rules : List Rule) (index : Nat) (source output : Value) :
    Transform.runRules rules (index + 1) source output =
      (Transform.runRules rules index source output).mapFault Fault.later := by
  induction rules generalizing index output with
  | nil => rfl
  | cons rule rest ih =>
    simp only [Transform.runRules, Outcome.mapFault_bind, Outcome.mapFault_under_succ, ih]

/-! ## The identifier first -/

/-- A name without points and brackets can be copied as a field. -/
theorem copyField_of_name {name : String} (filled : name ≠ "")
    (plain : ∀ c ∈ name.toList, c ≠ '.' ∧ c ≠ '[' ∧ c ≠ ']') :
    ∃ copy, Rule.copyField (.string name) none = .ok copy ∧
      copy.source.elements = [.field name] ∧ copy.dest.path.elements = [.field name] ∧
      copy.validators = [] ∧ copy.mapper = none := by
  have read : Path.read name = .ok ⟨[.field name], name⟩ := read_name ⟨filled, plain⟩
  refine ⟨{ source := ⟨⟨[.field name], name⟩, rfl⟩, dest := ⟨⟨[.field name], name⟩, rfl⟩ }, ?_,
    rfl, rfl, rfl, rfl⟩
  simp only [Rule.copyField, Path.ofValue, read]
  rfl

/-- The output after the rule that copies the identifier. -/
theorem applyRule_copyField {copy : FieldCopy} {idField : String} {element : Fields}
    (source : copy.source.elements = [.field idField])
    (dest : copy.dest.path.elements = [.field idField]) (validators : copy.validators = [])
    (mapper : copy.mapper = none) (present : (idField, Value.absent) ∉ element) :
    Transform.applyRule (.single copy) (.object element) (.object []) =
      .ok (.object (if Fields.has idField element then
        [(idField, Fields.get idField element)] else [])) := by
  have found : (Value.object element).resolve copy.source.path.elements =
      Fields.get idField element := by
    rw [show copy.source.path.elements = [.field idField] from source]
    rfl
  rw [Transform.applyRule, FieldCopy.apply_eq, FieldCopy.edits_plain validators mapper, ok_bind,
    Edit.applyAll_copying, found]
  cases has : Fields.has idField element with
  | false => simp [Fields.get_of_not_has has, Value.isAbsent]
  | true =>
    have filled : (Fields.get idField element).isAbsent = false := by
      cases held : Fields.get idField element with
      | absent =>
        have member := Fields.mem_of_has has
        rw [held] at member
        exact absurd member present
      | _ => rfl
    rw [filled]
    simp only [Value.write, dest]
    rfl

theorem shapeElement_eq_error {config : Config} {idField : String} {element : Fields} {e : Failure}
    (h : Transform.run config (.object element) = .error e) :
    Transform.shapeElement (Transform.run config) idField element = .error e := by
  rw [Transform.shapeElement, h]
  rfl

/-- Rules that spare the identifier make the element that they make behind it. -/
theorem shapeElement_eq_runRules {rules : List Rule} {idField : String} {element : Fields}
    (spared : Spares idField (Fields.get idField element)
      (rules.flatMap (·.places (.object element)))) :
    Transform.shapeElement (Transform.run (.rules rules)) idField element =
      Transform.runRules rules 0 (.object element) (.object (if Fields.has idField element then
        [(idField, Fields.get idField element)] else [])) := by
  cases has : Fields.has idField element with
  | false =>
    rw [if_neg Bool.false_ne_true]
    cases ran : Transform.runRules rules 0 (.object element) (.object []) with
    | error e => exact shapeElement_eq_error ran
    | ok output =>
      have ran' : Transform.run (.rules rules) (.object element) = .ok output := ran
      obtain ⟨fields, rfl, _⟩ := ordered_run ran'
      exact shapeElement_eq_ok.mpr ⟨fields, ran', by simp [has]⟩
  | true =>
    rw [if_pos rfl]
    have led : Led idField (Fields.get idField element)
        (rules.flatMap (·.places (.object element))) (.object [])
        (.object [(idField, Fields.get idField element)]) := ⟨[], rfl, rfl, Or.inr spared⟩
    rcases (runRules_led 0 led).outcomes with
      ⟨_, _, ⟨fields, rfl, rfl, _⟩, bare, behind⟩ | ⟨e, bare, behind⟩
    · rw [behind]
      exact shapeElement_eq_ok.mpr ⟨fields, bare, by simp [has]⟩
    · rw [behind]
      exact shapeElement_eq_error bare

/-- **The identifier first, and then the rules.** Take an element in which the identifier's field,
if it is there, is not absent, and rules that spare the identifier. Then what they make of the
element is what they make of it behind a rule that copies the identifier: the same output, with its
fields in the same order, or the same failure, met by a rule one place further on. -/
theorem shapeElement_eq_run (rules : List Rule) (idField : String) (element : Fields)
    (filled : idField ≠ "") (plain : ∀ c ∈ idField.toList, c ≠ '.' ∧ c ≠ '[' ∧ c ≠ ']')
    (present : (idField, Value.absent) ∉ element)
    (spared : Spares idField (Fields.get idField element)
      (rules.flatMap (·.places (.object element)))) :
    ∃ copy, Rule.copyField (.string idField) none = .ok copy ∧
      Transform.run (.rules (.single copy :: rules)) (.object element) =
        (Transform.shapeElement (Transform.run (.rules rules)) idField element).mapFault
          Fault.later := by
  obtain ⟨copy, made, source, dest, validators, mapper⟩ := copyField_of_name filled plain
  have first := applyRule_copyField source dest validators mapper present
  refine ⟨copy, made, ?_⟩
  rw [shapeElement_eq_runRules spared, ← runRules_succ, Transform.run, Transform.runRules, first]
  rfl

/-- A rule that writes below an identifier that is a number takes its place, and a second one fails,
as the third rule of the run and the second of the configuration. -/
theorem shapeElement_eq_run_number :
    let path (name : String) : Target := ⟨⟨[.field name], name⟩, rfl⟩
    let inside : Rule := .single
      { source := path "v", dest := ⟨⟨[.field "id", .field "w"], "id.w"⟩, rfl⟩ }
    let far : Rule := .single
      { source := path "v", dest := ⟨⟨[.field "id", .field "w", .index 1], "id.w[1]"⟩, rfl⟩ }
    let element : Fields := [("v", .null), ("id", .int 1)]
    let past : Fault := { cause := .indexPastEnd 1 0, path := some "id.w[1]" }
    ("id", Value.absent) ∉ element ∧
    Spares "id" (.int 1) ([inside, far].flatMap (·.places (.object element))) ∧
    ∃ copy, Rule.copyField (.string "id") none = .ok copy ∧
      Transform.run (.rules [.single copy, inside, far]) (.object element) =
        .error (.fault (past.under 2)) := by
  intro path inside far element past
  have present : ("id", Value.absent) ∉ element := by simp [element]
  have spared : Spares "id" (.int 1) ([inside, far].flatMap (·.places (.object element))) :=
    spares_of_isScalar rfl "id" _
  obtain ⟨copy, made, runs⟩ :=
    shapeElement_eq_run [inside, far] "id" element (by decide) (by simp) present spared
  exact ⟨present, spared, copy, made, runs.trans rfl⟩

/-- A rule that writes inside an identifier loses its other members: behind a rule that copies the
identifier they are kept. -/
theorem shapeElement_loses_member :
    let path (name : String) : Target := ⟨⟨[.field name], name⟩, rfl⟩
    let inside : Rule := .single
      { source := path "b", dest := ⟨⟨[.field "id", .field "b"], "id.b"⟩, rfl⟩ }
    let copy : FieldCopy := { source := path "id", dest := path "id" }
    let element : Fields := [("id", .object [("a", .int 1)]), ("b", .int 2)]
    Rule.copyField (.string "id") none = .ok copy ∧
    Transform.run (.rules [.single copy, inside]) (.object element) =
      .ok (.object [("id", .object [("a", .int 1), ("b", .int 2)])]) ∧
    Transform.shapeElement (Transform.run (.rules [inside])) "id" element =
      .ok (.object [("id", .object [("b", .int 2)])]) := by
  intro path inside copy element
  exact ⟨by rfl, rfl, rfl⟩

end Recast
