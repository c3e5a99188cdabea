import Mathlib.Data.List.Forall2
import Recast.Proofs.Numerals
import Recast.Proofs.PathChecks
import Recast.Proofs.Preservation
import Recast.Rule.Check

/-!
Checking a rule document against loading it. Loading stops at the first rule that cannot be built,
and checking goes on to the last. Both break off at a rule in which an integer that is too long to
be written stands in the place of the type, as no message can name it.

* `failure_of_load`: whatever else is wrong with a rule is a fault of the configuration that lies at
  the rule's location in the document;
* `issues_correspond`: the issues of a list of rules are those of the rules that cannot be built, in
  their order;
* `check_agrees_load`: a document is valid exactly when it can be loaded, and otherwise loading
  fails with the first issue, unless checking breaks off.
-/

namespace Recast

theorem Text.prefix_append (s t : String) : s.toList <+: (s ++ t).toList := by
  rw [String.toList_append]
  exact List.prefix_append _ _

/-! ## Where faults lie -/

/-- A failure is a fault of the configuration that lies at a location of a document, or inside it:
its path starts with the location. -/
def Failure.LiesAt (location : String) (e : Failure) : Prop :=
  ∃ f path, e = .fault f ∧ f.kind = .config ∧ f.path = some path ∧
    location.toList <+: path.toList

theorem Failure.liesAt_ofCause {cause : Cause} {location path : String}
    (config : cause.kind = .config) (inside : location.toList <+: path.toList) :
    (ofCause cause (some path)).LiesAt location :=
  ⟨_, path, rfl, config, rfl, inside⟩

theorem Failure.LiesAt.of_inside {location inner : String} {e : Failure} (h : e.LiesAt inner)
    (inside : location.toList <+: inner.toList) : e.LiesAt location := by
  obtain ⟨f, path, rfl, config, named, further⟩ := h
  exact ⟨f, path, rfl, config, named, inside.trans further⟩

/-- A failure of reading the part of a document at a location: it lies there, or no message can be
made. -/
def Failure.ArisesAt (location : String) (e : Failure) : Prop :=
  e.LiesAt location ∨ e = .unwritable

theorem Failure.ArisesAt.of_inside {location inner : String} {e : Failure} (h : e.ArisesAt inner)
    (inside : location.toList <+: inner.toList) : e.ArisesAt location :=
  h.imp_left fun lies => lies.of_inside inside

namespace Rule

/-- An integer that is too long to be written stands in the place of a rule's type. -/
def Unspelled (v : Value) : Prop :=
  ∃ fields, v = .object fields ∧ (memberOf "type" fields).all Value.isShort = false

/-- A failure that can be put down to the location of a rule: one that lies there, the refusal of a
path, or the refusal of a value. -/
inductive Locatable (location : String) : Failure → Prop where
  | lies {e : Failure} (h : e.LiesAt location) : Locatable location e
  | path {f : Fault} (h : f.kind = .malformedPath) : Locatable location (.fault f)
  | value {message : String} : Locatable location (.signal .value message)

theorem liesAt_of_locate {location : String} {x : Outcome Rule} {e : Failure}
    (h : locate location x = .error e)
    (parts : ∀ inner, x = .error inner → Locatable location inner) :
    e.LiesAt location := by
  cases x with
  | ok rule => cases h
  | error inner =>
    cases parts inner rfl with
    | lies lies =>
      obtain ⟨f, path, rfl, config, named, inside⟩ := lies
      have other : ¬ f.kind = .malformedPath := by simp [config]
      simp only [locate, if_neg other] at h
      cases h
      exact ⟨f, path, rfl, config, named, inside⟩
    | @path f malformed =>
      simp only [locate, if_pos malformed] at h
      cases h
      refine Failure.liesAt_ofCause rfl ?_
      exact (Text.prefix_append _ _).trans (Text.prefix_append _ _)
    | value =>
      cases h
      exact Failure.liesAt_ofCause rfl List.prefix_rfl

/-- What is wrong with a rule is never put down to its location as the refusal of a value. -/
theorem locate_ne_value {location message : String} {x : Outcome Rule} :
    locate location x ≠ .error (.signal .value message) := by
  intro h
  unfold locate at h
  split at h
  · split at h <;> cases h
  · cases h
  · rename_i other
    exact other message h

section
variable {location : String} {e : Failure}

/-! ## Parts of a rule -/

theorem locatable_of_ofValue {v : Value} (h : Path.ofValue v = .error e) :
    Locatable location e := by
  rcases Path.verdict_of_ofValue v with
    ⟨p, spelled⟩ | ⟨_, cause, path, _, malformed, failed, _⟩ | ⟨_, breaks⟩
  · cases h.symm.trans spelled
  · cases h.symm.trans failed
    exact .path malformed
  · cases h.symm.trans (Path.ofValue_of_breaks breaks)
    cases breaks with
    | text overruns =>
      obtain ⟨n, rfl⟩ := overruns.2.1
      exact .value
    | literal => exact .value

theorem locatable_of_ofPath {p : Path} {message : String}
    (h : Target.ofPath p message = .error e) : Locatable location e := by
  unfold Target.ofPath at h
  split at h <;> cases h
  exact .value

theorem locatable_of_textOf {name : String} {fields : Fields}
    (h : textOf name location fields = .error e) : Locatable location e := by
  unfold textOf at h
  split at h <;> cases h
  exact .lies (Failure.liesAt_ofCause rfl List.prefix_rfl)

theorem locatable_of_listOf {name : String} {fields : Fields}
    (h : listOf name location fields = .error e) : Locatable location e := by
  unfold listOf at h
  split at h
  · split at h <;> cases h
    exact .lies (Failure.liesAt_ofCause rfl List.prefix_rfl)
  · cases h

theorem liesAt_of_loadValidator {reference : Value}
    (h : loadValidator reference location = .error e) : e.LiesAt location := by
  unfold loadValidator at h
  split at h
  · split at h <;> cases h
    exact Failure.liesAt_ofCause rfl List.prefix_rfl
  · cases h
    exact Failure.liesAt_ofCause rfl List.prefix_rfl

theorem liesAt_of_loadValidators {n : Nat} {references : List Value}
    (h : loadValidators location n references = .error e) : e.LiesAt location := by
  induction references generalizing n with
  | nil => cases h
  | cons reference rest ih =>
    rcases bind_eq_error.mp h with failed | ⟨first, _, h⟩
    · apply (liesAt_of_loadValidator failed).of_inside
      have step := Text.prefix_append location ".validators["
      exact step.trans ((Text.prefix_append _ _).trans (Text.prefix_append _ _))
    · rcases bind_eq_error.mp h with failed | ⟨others, _, h⟩
      · exact ih failed
      · cases h

/-- Building one of the library's own mappers fails only with a complaint about its options. -/
theorem isComplaint_of_build {name : String} {build : Fields → Outcome Mapper} {options : Fields}
    (found : Mapper.named? name = some build) (h : build options = .error e) :
    e.isComplaint = true := by
  have plain : ∀ typeName name change, Mapper.plain typeName name change options = .error e →
      e.isComplaint = true := by
    intro typeName name change h
    unfold Mapper.plain at h
    split at h <;> cases h
    rfl
  have refused : Mapper.prependRefusal? options = some e → e.isComplaint = true := by
    intro h
    unfold Mapper.prependRefusal? at h
    split at h
    · split at h <;> cases h <;> rfl
    · split at h <;> cases h <;> rfl
  rcases Mapper.of_named? found with rfl | ⟨typeName, own, change, rfl⟩
  · unfold Mapper.prepending at h
    split at h
    · cases h
    · rename_i refusal
      cases h
      exact refused refusal
    · cases h
      rfl
  · exact plain typeName own change h

theorem liesAt_of_loadMapper {reference : Value} (h : loadMapper reference location = .error e) :
    e.LiesAt location := by
  unfold loadMapper at h
  split at h
  · rename_i name _
    split at h
    · cases h
      exact Failure.liesAt_ofCause rfl List.prefix_rfl
    · rename_i build found
      cases built : build (referenceOptions reference) with
      | ok m =>
        rw [built] at h
        cases h
      | error inner =>
        have complaint := isComplaint_of_build found built
        simp only [built, Outcome.adopt, complaint, if_true] at h
        cases h
        exact ⟨_, location, rfl, rfl, rfl, List.prefix_rfl⟩
  · cases h
    exact Failure.liesAt_ofCause rfl List.prefix_rfl

/-! ## Rules of each type -/

theorem locatable_of_copyField {source : Value} {dest : Option Value}
    (h : copyField source dest = .error e) : Locatable location e := by
  have ofPaths : ∀ start place : Path, FieldCopy.ofPaths start place = .error e →
      Locatable location e := by
    intro start place h
    rcases bind_eq_error.mp h with failed | ⟨_, _, h⟩
    · exact locatable_of_ofPath failed
    · rcases bind_eq_error.mp h with failed | ⟨_, _, h⟩
      · exact locatable_of_ofPath failed
      · cases h
  rcases bind_eq_error.mp h with failed | ⟨start, _, h⟩
  · exact locatable_of_ofValue failed
  · split at h
    · rcases bind_eq_error.mp h with failed | ⟨place, _, h⟩
      · exact locatable_of_ofValue failed
      · exact ofPaths start place h
    · exact ofPaths start start h

theorem locatable_of_loadCopyField {fields : Fields}
    (h : loadCopyField fields location = .error e) : Locatable location e := by
  rcases bind_eq_error.mp h with failed | ⟨source, _, h⟩
  · exact locatable_of_textOf failed
  rcases bind_eq_error.mp h with failed | ⟨copy, _, h⟩
  · exact locatable_of_copyField failed
  rcases bind_eq_error.mp h with failed | ⟨references, _, h⟩
  · exact locatable_of_listOf failed
  rcases bind_eq_error.mp h with failed | ⟨validators, _, h⟩
  · exact .lies (liesAt_of_loadValidators failed)
  split at h
  · cases h
  · rcases bind_eq_error.mp h with failed | ⟨mapper, _, h⟩
    · have lies := liesAt_of_loadMapper (map_eq_error.mp failed)
      exact .lies (lies.of_inside (Text.prefix_append location ".mapper"))
    · cases h

theorem locatable_of_loadCopyFields {fields : Fields}
    (h : loadCopyFields fields location = .error e) : Locatable location e := by
  rcases bind_eq_error.mp h with failed | ⟨names, _, h⟩
  · exact locatable_of_listOf failed
  split at h
  · cases h
    exact .lies (Failure.liesAt_ofCause rfl List.prefix_rfl)
  · rcases bind_eq_error.mp h with failed | ⟨paths, _, h⟩
    · obtain ⟨v, _, refused⟩ := exists_of_mapM_error failed
      exact locatable_of_ofValue refused
    · dsimp only at h
      split at h <;> cases h
      exact .value

theorem locatable_of_loadCopy {fields : Fields} (h : loadCopy fields location = .error e) :
    Locatable location e := by
  rcases bind_eq_error.mp h with failed | ⟨text, _, h⟩
  · exact locatable_of_textOf failed
  rcases bind_eq_error.mp h with failed | ⟨path, _, h⟩
  · exact locatable_of_ofValue failed
  · exact locatable_of_ofPath (map_eq_error.mp h)

theorem locatable_of_loadMerge {fields : Fields} (h : loadMerge fields = .error e) :
    Locatable location e := by
  rcases bind_eq_error.mp h with failed | ⟨path, _, h⟩
  · exact locatable_of_ofValue failed
  · cases h

theorem locatable_of_copyArray {path : Path} {config : Config} {idField : Value}
    (h : copyArray path config idField = .error e) : Locatable location e := by
  rcases bind_eq_error.mp h with failed | ⟨target, _, h⟩
  · exact locatable_of_ofPath failed
  · dsimp only at h
    split at h
    · split at h <;> cases h
      exact .value
    · cases h
      exact .value

/-- What is wrong with a rule's type lies at its location, or the value in its place cannot be
named. -/
theorem failure_of_typeOf {fields : Fields} (h : typeOf fields location = .error e) :
    e.LiesAt location ∨ e = .unwritable ∧ (memberOf "type" fields).all Value.isShort = false := by
  have unknown : ∀ type, unknownType type location = .error e →
      e.LiesAt location ∨ e = .unwritable ∧ type.all Value.isShort = false := by
    intro type h
    cases short : type.all Value.isShort with
    | true =>
      rw [unknownType, Value.literal_of_short short, ok_bind] at h
      cases h
      exact Or.inl (Failure.liesAt_ofCause rfl List.prefix_rfl)
    | false =>
      rw [unknownType, Value.literal_of_long short] at h
      cases h
      exact Or.inr ⟨rfl, rfl⟩
  unfold typeOf at h
  split at h
  · rename_i name type
    split at h
    · cases h
    · rw [type]
      exact unknown _ h
  · exact unknown _ h

theorem typeOf_eq_ok {fields : Fields} {name : String} :
    typeOf fields location = .ok name ↔
      memberOf "type" fields = .string name ∧ name ∈ types := by
  have unknown : ∀ type, unknownType type location ≠ .ok name := by
    intro type h
    obtain ⟨_, _, h⟩ := bind_eq_ok.mp h
    cases h
  unfold typeOf
  split
  · rename_i other type
    rw [type, Value.string.injEq]
    split
    · rename_i known
      constructor
      · intro h
        cases h
        exact ⟨rfl, known⟩
      · rintro ⟨rfl, _⟩
        rfl
    · rename_i strange
      refine iff_of_false (unknown _) ?_
      rintro ⟨rfl, known⟩
      exact strange known
  · rename_i other
    exact iff_of_false (unknown _) fun ⟨type, _⟩ => other name type

/-- What is wrong with a rule's object can be put down to its location, if what is wrong with the
configuration inside it arises there. -/
theorem locatable_of_loadObject {type : String} {fields : Fields}
    {nested : String → Outcome (List Rule)}
    (inside : ∀ place, nested place = .error e → e.ArisesAt place)
    (h : loadObject type fields nested location = .error e) : Locatable location e := by
  unfold loadObject at h
  split at h
  · exact locatable_of_loadCopyField h
  · exact locatable_of_loadCopyFields h
  · exact locatable_of_loadCopy h
  · exact locatable_of_loadMerge h
  · rcases bind_eq_error.mp h with failed | ⟨rules, _, h⟩
    · rcases inside _ failed with lies | rfl
      · exact .lies (lies.of_inside (Text.prefix_append location ".rules"))
      · exact .value
    rcases bind_eq_error.mp h with failed | ⟨text, _, h⟩
    · exact locatable_of_textOf failed
    rcases bind_eq_error.mp h with failed | ⟨idField, _, h⟩
    · exact locatable_of_textOf failed
    rcases bind_eq_error.mp h with failed | ⟨path, _, h⟩
    · exact locatable_of_ofValue failed
    · exact locatable_of_copyArray h

end

/-! ## Rules and documents -/

theorem arisesAt_of_rulesExpected {v : Value} {location : String} {e : Failure}
    (h : rulesExpected v location = .error e) : e.ArisesAt location := by
  cases h
  exact Or.inl (Failure.liesAt_ofCause rfl List.prefix_rfl)

mutual

theorem arisesAt_of_load : (v : Value) → (location : String) → (e : Failure) →
    load v location = .error e → e.ArisesAt location
  | .object fields, location, e, h => by
    rw [load] at h
    rcases bind_eq_error.mp h with failed | ⟨type, _, h⟩
    · exact (failure_of_typeOf failed).imp_right And.left
    · exact Or.inl (liesAt_of_locate h fun _ failed =>
        locatable_of_loadObject (fun place => arisesAt_of_loadNested fields place _) failed)
  | .absent, _, _, h | .null, _, _, h | .bool _, _, _, h | .int _, _, _, h | .double _, _, _, h
  | .string _, _, _, h | .array _ _, _, _, h | .foreign _ _, _, _, h => by
    rw [load] at h
    · cases h
      exact Or.inl (Failure.liesAt_ofCause rfl List.prefix_rfl)
    · simp

theorem arisesAt_of_loadNested : (fields : List (String × Value)) → (location : String) →
    (e : Failure) → loadNested fields location = .error e → e.ArisesAt location
  | [], _, _, h => nomatch h
  | (name, v) :: rest, location, e, h => by
    rw [loadNested] at h
    split at h
    · exact arisesAt_of_loadRules v location e h
    · exact arisesAt_of_loadNested rest location e h

theorem arisesAt_of_loadRules : (v : Value) → (location : String) → (e : Failure) →
    loadRules v location = .error e → e.ArisesAt location
  | .array false items, location, e, h => arisesAt_of_loadItems items location 0 e h
  | .object fields, location, e, h => arisesAt_of_loadMember fields location e h
  | .array true _, _, _, h | .absent, _, _, h | .null, _, _, h | .bool _, _, _, h | .int _, _, _, h
  | .double _, _, _, h | .string _, _, _, h | .foreign _ _, _, _, h => arisesAt_of_rulesExpected h

theorem arisesAt_of_loadMember : (fields : List (String × Value)) → (location : String) →
    (e : Failure) → loadMember fields location = .error e → e.ArisesAt location
  | [], _, _, h => arisesAt_of_rulesExpected h
  | (name, v) :: rest, location, e, h => by
    rw [loadMember] at h
    split at h
    · exact arisesAt_of_loadList v location e h
    · exact arisesAt_of_loadMember rest location e h

theorem arisesAt_of_loadList : (v : Value) → (location : String) → (e : Failure) →
    loadList v location = .error e → e.ArisesAt location
  | .array false items, location, e, h => arisesAt_of_loadItems items location 0 e h
  | .array true _, _, _, h | .object _, _, _, h | .absent, _, _, h | .null, _, _, h
  | .bool _, _, _, h | .int _, _, _, h | .double _, _, _, h | .string _, _, _, h
  | .foreign _ _, _, _, h => arisesAt_of_rulesExpected h

theorem arisesAt_of_loadItems : (items : List Value) → (location : String) → (position : Nat) →
    (e : Failure) → loadItems location position items = .error e → e.ArisesAt location
  | [], _, _, _, h => nomatch h
  | v :: rest, location, position, e, h => by
    rcases bind_eq_error.mp h with failed | ⟨first, _, h⟩
    · apply (arisesAt_of_load v _ e failed).of_inside
      have step := Text.prefix_append location "["
      exact step.trans ((Text.prefix_append _ _).trans (Text.prefix_append _ _))
    · rcases bind_eq_error.mp h with failed | ⟨others, _, h⟩
      · exact arisesAt_of_loadItems rest location (position + 1) e failed
      · cases h

end

/-- No message can be made exactly where an integer that is too long stands in the place of the
type. Inside another rule the same is put down to the location of that rule. -/
theorem load_eq_unwritable_iff {v : Value} {location : String} :
    load v location = .error .unwritable ↔ Unspelled v := by
  constructor
  · intro h
    cases v with
    | object fields =>
      rw [load] at h
      rcases bind_eq_error.mp h with failed | ⟨type, _, failed⟩
      · rcases failure_of_typeOf failed with ⟨_, _, other, _⟩ | ⟨_, long⟩
        · cases other
        · exact ⟨fields, rfl, long⟩
      · exact absurd failed locate_ne_value
    | _ =>
      rw [load] at h
      · cases h
      · simp
  · rintro ⟨fields, rfl, long⟩
    have unknown : typeOf fields location = .error .unwritable := by
      unfold typeOf
      split
      · rename_i name type
        rw [type] at long
        cases long
      · rw [unknownType, Value.literal_of_long long, error_bind]
    rw [load, unknown, error_bind]

/-- **What is wrong with a rule** is a fault of the configuration that lies at its location, unless
the value in the place of its type cannot be named. -/
theorem failure_of_load {v : Value} {location : String} {e : Failure}
    (h : load v location = .error e) :
    e.LiesAt location ∨ e = .unwritable ∧ Unspelled v := by
  rcases arisesAt_of_load v location e h with lies | rfl
  · exact Or.inl lies
  · exact Or.inr ⟨rfl, load_eq_unwritable_iff.mp h⟩

/-! ## Documents as lists of rules -/

theorem loadMember_eq (fields : Fields) (location : String) :
    loadMember fields location =
      if Fields.has "rules" fields then loadList (Fields.get "rules" fields) location
      else rulesExpected (.object fields) location := by
  induction fields with
  | nil => rfl
  | cons field rest ih =>
    obtain ⟨name, v⟩ := field
    rw [loadMember]
    by_cases named : name = "rules"
    · simp [named, Fields.has, Fields.get]
    · have has : Fields.has "rules" ((name, v) :: rest) = Fields.has "rules" rest := by
        simp [Fields.has, named]
      rw [if_neg named, ih, has, Fields.get, if_neg named]
      rfl

/-- A document is loaded as the list of rules that it holds. -/
theorem loadRules_eq (document : Value) (location : String) :
    loadRules document location = loadList (unwrap document) location := by
  cases document with
  | object fields =>
    rw [loadRules, loadMember_eq, unwrap]
    by_cases has : Fields.has "rules" fields = true
    · simp only [if_pos has]
    · simp only [if_neg has]
      rfl
  | array fixed items => cases fixed <;> rfl
  | _ => rfl

/-- Loading finds the rules of a document at the same locations as checking. -/
theorem loadItems_cons (n : Nat) (v : Value) (rest : List Value) :
    loadItems "rules" n (v :: rest) = do
      let first ← load v s!"rules[{n}]"
      let others ← loadItems "rules" (n + 1) rest
      return first :: others := rfl

/-- An issue reports the rule at a position: the rule cannot be built, and the issue has the message
and the path of the fault, which lies at the rule. -/
def Reports (v : Value) (k : Nat) (issue : Issue) : Prop :=
  ∃ f path, load v s!"rules[{k}]" = .error (.fault f) ∧ f.kind = .config ∧ f.path = some path ∧
    s!"rules[{k}]".toList <+: path.toList ∧ issue = ⟨.config, f.message, some path⟩

theorem issue?_of_ok {v : Value} {location : String} {rule : Rule}
    (built : load v location = .ok rule) : issue? v location = .ok none := by
  rw [issue?, built]

/-- A rule that cannot be built has an issue, unless the check breaks off at it. -/
theorem issue?_of_error {v : Value} {k : Nat} {e : Failure}
    (failed : load v s!"rules[{k}]" = .error e) :
    (∃ issue, issue? v s!"rules[{k}]" = .ok (some issue) ∧ Reports v k issue) ∨
      issue? v s!"rules[{k}]" = .error .unwritable ∧ Unspelled v := by
  rcases failure_of_load failed with ⟨f, path, rfl, config, named, inside⟩ | ⟨rfl, unspelled⟩
  · refine Or.inl ⟨⟨.config, f.message, f.path⟩, ?_, f, path, failed, config, named, inside, ?_⟩
    · simp only [issue?, failed, if_pos config]
    · rw [named]
  · refine Or.inr ⟨?_, unspelled⟩
    rw [issue?, failed]
    rfl

/-- A list with a rule whose type cannot be named cannot be loaded. -/
theorem loadItems_of_unspelled (n : Nat) {v : Value} {rules : List Value} (mem : v ∈ rules)
    (unspelled : Unspelled v) : ∃ e, loadItems "rules" n rules = .error e := by
  induction rules generalizing n with
  | nil => cases mem
  | cons w rest ih =>
    rw [loadItems_cons]
    cases built : load w s!"rules[{n}]" with
    | error e => exact ⟨e, rfl⟩
    | ok rule =>
      rcases List.mem_cons.mp mem with rfl | mem
      · cases built.symm.trans (load_eq_unwritable_iff.mpr unspelled)
      · obtain ⟨e, failed⟩ := ih (n + 1) mem
        exact ⟨e, by rw [ok_bind, failed, error_bind]⟩

/-- Loading a list fails without a fault only at a rule whose type cannot be named. -/
theorem unspelled_of_loadItems {n : Nat} {rules : List Value}
    (h : loadItems "rules" n rules = .error .unwritable) : ∃ v ∈ rules, Unspelled v := by
  induction rules generalizing n with
  | nil => cases h
  | cons v rest ih =>
    rw [loadItems_cons] at h
    rcases bind_eq_error.mp h with failed | ⟨first, _, h⟩
    · exact ⟨v, List.mem_cons_self, load_eq_unwritable_iff.mp failed⟩
    · rcases bind_eq_error.mp h with failed | ⟨others, _, h⟩
      · obtain ⟨w, mem, unspelled⟩ := ih failed
        exact ⟨w, List.mem_cons_of_mem v mem, unspelled⟩
      · cases h

/-- Checking a list of rules breaks off only where a rule's type cannot be named. -/
theorem issues_eq_error {n : Nat} {rules : List Value} {e : Failure}
    (h : issues n rules = .error e) : e = .unwritable ∧ ∃ v ∈ rules, Unspelled v := by
  induction rules generalizing n with
  | nil => cases h
  | cons v rest ih =>
    rcases bind_eq_error.mp h with broken | ⟨first, _, h⟩
    · cases built : load v s!"rules[{n}]" with
      | ok rule => cases broken.symm.trans (issue?_of_ok built)
      | error e' =>
        rcases issue?_of_error built with ⟨issue, found, _⟩ | ⟨stopped, unspelled⟩
        · cases broken.symm.trans found
        · cases broken.symm.trans stopped
          exact ⟨rfl, v, List.mem_cons_self, unspelled⟩
    · rcases bind_eq_error.mp h with broken | ⟨others, _, h⟩
      · obtain ⟨same, w, mem, unspelled⟩ := ih broken
        exact ⟨same, w, List.mem_cons_of_mem v mem, unspelled⟩
      · cases h

/-- Loading a list of rules succeeds when checking finds no issue, and else fails with the first. -/
theorem verdict_of_loadItems {n : Nat} {rules : List Value} {found : List Issue}
    (checked : issues n rules = .ok found) :
    match loadItems "rules" n rules with
    | .ok _ => found = []
    | .error e => ∃ f rest, e = .fault f ∧ f.kind = .config ∧
        found = ⟨.config, f.message, f.path⟩ :: rest := by
  induction rules generalizing n found with
  | nil =>
    cases checked
    exact rfl
  | cons v rest ih =>
    obtain ⟨first, here, checked⟩ := bind_eq_ok.mp checked
    obtain ⟨others, later, same⟩ := bind_eq_ok.mp checked
    cases same
    rw [loadItems_cons]
    cases built : load v s!"rules[{n}]" with
    | error e =>
      rcases issue?_of_error built with
        ⟨_, made, f, path, failed, config, named, _, rfl⟩ | ⟨broken, _⟩
      · cases here.symm.trans made
        cases built.symm.trans failed
        exact ⟨f, _, rfl, config, by rw [named]; rfl⟩
      · cases here.symm.trans broken
    | ok rule =>
      cases here.symm.trans (issue?_of_ok built)
      have verdict := ih later
      rw [ok_bind]
      cases more : loadItems "rules" (n + 1) rest with
      | error e =>
        rw [more] at verdict
        exact verdict
      | ok loaded =>
        rw [more] at verdict
        exact verdict

/-- **One issue for each rule that cannot be built**, in the order of the rules. -/
theorem issues_correspond (seen : List Value) {rest : List Value} {found : List Issue}
    (checked : issues seen.length rest = .ok found) :
    ∃ ks : List Nat, ks.Pairwise (· < ·) ∧
      (∀ k, k ∈ ks ↔ seen.length ≤ k ∧
        ∃ v e, (seen ++ rest)[k]? = some v ∧ load v s!"rules[{k}]" = .error e) ∧
      List.Forall₂ (fun k issue => ∃ v, (seen ++ rest)[k]? = some v ∧ Reports v k issue) ks
        found := by
  induction rest generalizing seen found with
  | nil =>
    cases checked
    refine ⟨[], List.Pairwise.nil, ?_, List.Forall₂.nil⟩
    intro k
    simp only [List.not_mem_nil, List.append_nil, false_iff, not_and]
    rintro outside ⟨v, _, inside, _⟩
    have bound := (List.getElem?_eq_some_iff.mp inside).1
    omega
  | cons v rest ih =>
    obtain ⟨here, one, checked⟩ := bind_eq_ok.mp checked
    obtain ⟨others, later, same⟩ := bind_eq_ok.mp checked
    cases same
    have further := ih (seen ++ [v]) (by simpa using later)
    simp only [List.append_assoc, List.singleton_append, List.length_append,
      List.length_singleton] at further
    obtain ⟨ks, sorted, mem, reports⟩ := further
    have first : (seen ++ v :: rest)[seen.length]? = some v := by simp
    cases built : load v s!"rules[{seen.length}]" with
    | error e =>
      rcases issue?_of_error built with ⟨issue, made, report⟩ | ⟨broken, _⟩
      · cases one.symm.trans made
        refine ⟨seen.length :: ks, ?_, ?_, List.Forall₂.cons ⟨v, first, report⟩ reports⟩
        · refine List.pairwise_cons.mpr ⟨?_, sorted⟩
          intro k later
          have bound := ((mem k).mp later).1
          omega
        · intro k
          rw [List.mem_cons, mem]
          constructor
          · rintro (rfl | ⟨bound, failed⟩)
            · exact ⟨Nat.le_refl _, v, e, first, built⟩
            · exact ⟨by omega, failed⟩
          · rintro ⟨bound, failed⟩
            by_cases here : k = seen.length
            · exact Or.inl here
            · exact Or.inr ⟨by omega, failed⟩
      · cases one.symm.trans broken
    | ok rule =>
      cases one.symm.trans (issue?_of_ok built)
      refine ⟨ks, sorted, ?_, reports⟩
      intro k
      rw [mem]
      constructor
      · rintro ⟨bound, failed⟩
        exact ⟨by omega, failed⟩
      · rintro ⟨bound, w, e, found, failed⟩
        refine ⟨?_, w, e, found, failed⟩
        by_contra here
        obtain rfl : k = seen.length := by omega
        obtain rfl : v = w := Option.some.inj (first.symm.trans found)
        cases built.symm.trans failed

end Rule

/-! ## Whole documents -/

theorem loadList_of_not_list {v : Value} (other : ∀ rules, v ≠ .array false rules)
    (location : String) : Rule.loadList v location = Rule.rulesExpected v location := by
  cases v with
  | array fixed items =>
    cases fixed with
    | true => rfl
    | false => exact absurd rfl (other items)
  | _ => rfl

/-- Checking a document that holds a list finds the issues of the list, or breaks off where that
does. -/
theorem check_of_list {document : Value} {rules : List Value}
    (list : Rule.unwrap document = .array false rules) :
    (∃ report, Rule.check document = .ok report ∧ Rule.issues 0 rules = .ok report.issues) ∨
      ∃ e, Rule.check document = .error e ∧ Rule.issues 0 rules = .error e := by
  simp only [Rule.check, list]
  cases Rule.issues 0 rules with
  | ok found =>
    refine Or.inl ⟨_, rfl, ?_⟩
    rfl
  | error e => exact Or.inr ⟨e, rfl, rfl⟩

/-- Checking a document that holds no list finds that. -/
theorem check_of_not_list {document : Value}
    (other : ∀ rules, Rule.unwrap document ≠ .array false rules) :
    Rule.check document =
      .ok (.ofIssue .config (Cause.rulesExpected (Rule.unwrap document).typeName).message "rules")
      := by
  unfold Rule.check
  split
  · rename_i rules list
    exact absurd list (other rules)
  · rfl

/-- Loading a document succeeds when checking finds no issue, and else fails with the first. -/
theorem verdict_of_load {document : Value} {report : Report}
    (checked : Rule.check document = .ok report) :
    match Config.load document with
    | .ok _ => report.issues = []
    | .error e => ∃ f rest, e = .fault f ∧ f.kind = .config ∧
        report.issues = ⟨.config, f.message, f.path⟩ :: rest := by
  rw [Config.load, Rule.loadRules_eq]
  by_cases list : ∃ rules, Rule.unwrap document = .array false rules
  · obtain ⟨rules, list⟩ := list
    rcases check_of_list list with ⟨_, same, found⟩ | ⟨e, broken, _⟩
    · cases checked.symm.trans same
      have verdict := Rule.verdict_of_loadItems found
      rw [list, Rule.loadList]
      cases loaded : Rule.loadItems "rules" 0 rules with
      | ok loaded' =>
        rw [loaded] at verdict
        exact verdict
      | error e =>
        rw [loaded] at verdict
        exact verdict
    · cases checked.symm.trans broken
  · have other : ∀ rules, Rule.unwrap document ≠ .array false rules :=
      fun rules same => list ⟨rules, same⟩
    cases checked.symm.trans (check_of_not_list other)
    rw [loadList_of_not_list other]
    exact ⟨_, [], rfl, rfl, rfl⟩

/-- A rule of the document has an integer that is too long to be written in the place of its
type. -/
def Rule.HoldsUnspelled (document : Value) : Prop :=
  ∃ rules, Rule.unwrap document = .array false rules ∧ ∃ v ∈ rules, Rule.Unspelled v

theorem check_eq_error {document : Value} {e : Failure} (h : Rule.check document = .error e) :
    e = .unwritable ∧ Rule.HoldsUnspelled document := by
  by_cases list : ∃ rules, Rule.unwrap document = .array false rules
  · obtain ⟨rules, list⟩ := list
    rcases check_of_list list with ⟨_, found, _⟩ | ⟨e', broken, failed⟩
    · cases h.symm.trans found
    · cases h.symm.trans broken
      obtain ⟨same, unspelled⟩ := Rule.issues_eq_error failed
      exact ⟨same, rules, list, unspelled⟩
  · cases h.symm.trans (check_of_not_list fun rules same => list ⟨rules, same⟩)

/-- A document cannot be loaded either if checking it breaks off. -/
theorem load_of_unspelled {document : Value} (h : Rule.HoldsUnspelled document) :
    ∃ e, Config.load document = .error e := by
  obtain ⟨rules, list, v, mem, unspelled⟩ := h
  obtain ⟨e, failed⟩ := Rule.loadItems_of_unspelled 0 mem unspelled
  exact ⟨e, by rw [Config.load, Rule.loadRules_eq, list, Rule.loadList, failed]; rfl⟩

/-- Loading fails without a fault only where checking breaks off. -/
theorem holdsUnspelled_of_load {document : Value}
    (h : Config.load document = .error .unwritable) : Rule.HoldsUnspelled document := by
  rw [Config.load, Rule.loadRules_eq] at h
  have failed := map_eq_error.mp h
  by_cases list : ∃ rules, Rule.unwrap document = .array false rules
  · obtain ⟨rules, list⟩ := list
    rw [list] at failed
    exact ⟨rules, list, Rule.unspelled_of_loadItems failed⟩
  · rw [loadList_of_not_list fun rules same => list ⟨rules, same⟩] at failed
    cases failed

/-- A document whose integers are all short enough to be written holds no such rule. -/
theorem not_holdsUnspelled_of_short {document : Value}
    (short : document.all Value.isShort = true) : ¬ Rule.HoldsUnspelled document := by
  have member : ∀ {name : String} {fields : Fields},
      (Value.object fields).all Value.isShort = true → Fields.has name fields = true →
      (Fields.get name fields).all Value.isShort = true := fun all has =>
    (Value.all_object_iff.mp all).2 _ (Fields.mem_of_has has)
  have unwrapped : (Rule.unwrap document).all Value.isShort = true := by
    unfold Rule.unwrap
    split
    · split
      · rename_i has
        exact member short has
      · exact short
    · exact short
  rintro ⟨rules, list, _, mem, fields, rfl, long⟩
  rw [list] at unwrapped
  have inside := (Value.all_array_iff.mp unwrapped).2 _ mem
  unfold Rule.memberOf at long
  split at long
  · rename_i has
    rw [member inside has] at long
    cases long
  · cases long

/-- **What is wrong with a document** is a fault of the configuration, unless the value in the place
of a rule's type cannot be named. -/
theorem failure_of_config {document : Value} {e : Failure} (h : Config.load document = .error e) :
    e.LiesAt "rules" ∨ e = .unwritable ∧ Rule.HoldsUnspelled document := by
  rcases Rule.arisesAt_of_loadRules document _ e (map_eq_error.mp h) with lies | rfl
  · exact Or.inl lies
  · exact Or.inr ⟨rfl, holdsUnspelled_of_load h⟩

/-- **Checking and loading agree.** A rule document is valid exactly when it can be loaded. When it
is not, loading fails with a fault of the configuration that has the message and the path of the
first issue. The issues of a list of rules are those of the rules that cannot be built, one for
each, in their order, and each lies at its rule; a document that holds no list has one issue. The
one exception is a document in which an integer that is too long to be written stands in the place
of a rule's type: checking it breaks off, and loading fails, there or at a rule before. For no other
reason a rule or a document fails with anything but a fault of the configuration. -/
theorem check_agrees_load (document : Value) :
    ((∃ report, Rule.check document = .ok report ∧
      (report.isValid = true ↔ ∃ config, Config.load document = .ok config) ∧
      (report.isValid = false →
        ∃ f issue rest, Config.load document = .error (.fault f) ∧ f.kind = .config ∧
          report.issues = issue :: rest ∧ f.message = issue.message ∧ f.path = issue.location) ∧
      (∀ rules, Rule.unwrap document = .array false rules →
        ∃ ks : List Nat, ks.Pairwise (· < ·) ∧
          (∀ k, k ∈ ks ↔ ∃ v e, rules[k]? = some v ∧ Rule.load v s!"rules[{k}]" = .error e) ∧
          List.Forall₂ (fun k issue => ∃ v, rules[k]? = some v ∧ Rule.Reports v k issue) ks
            report.issues) ∧
      ((∀ rules, Rule.unwrap document ≠ .array false rules) → report.issues =
        [⟨.config, (Cause.rulesExpected (Rule.unwrap document).typeName).message, some "rules"⟩])) ∨
      Rule.check document = .error .unwritable ∧ Rule.HoldsUnspelled document ∧
        ∃ e, Config.load document = .error e) ∧
    (∀ v location e, Rule.load v location = .error e →
      e.LiesAt location ∨ e = .unwritable ∧ Rule.Unspelled v) ∧
    ∀ e, Config.load document = .error e →
      e.LiesAt "rules" ∨ e = .unwritable ∧ Rule.HoldsUnspelled document := by
  refine ⟨?_, fun v location e => Rule.failure_of_load, fun e => failure_of_config⟩
  cases checked : Rule.check document with
  | error e =>
    obtain ⟨rfl, unspelled⟩ := check_eq_error checked
    exact Or.inr ⟨rfl, unspelled, load_of_unspelled unspelled⟩
  | ok report =>
    have verdict := verdict_of_load checked
    refine Or.inl ⟨report, rfl, ?_, ?_, ?_, ?_⟩
    · unfold Report.isValid
      cases loaded : Config.load document with
      | ok config =>
        rw [loaded] at verdict
        simp [show report.issues = [] from verdict]
      | error e =>
        rw [loaded] at verdict
        obtain ⟨f, rest, _, _, issues⟩ := verdict
        simp [issues]
    · intro invalid
      cases loaded : Config.load document with
      | ok config =>
        rw [loaded] at verdict
        have none : report.issues = [] := verdict
        simp [Report.isValid, none] at invalid
      | error e =>
        rw [loaded] at verdict
        obtain ⟨f, rest, rfl, config, issues⟩ := verdict
        exact ⟨f, _, rest, rfl, config, issues, rfl, rfl⟩
    · intro rules list
      rcases check_of_list list with ⟨_, same, found⟩ | ⟨e, broken, _⟩
      · cases checked.symm.trans same
        have correspond := Rule.issues_correspond [] found
        simp only [List.length_nil, Nat.zero_le, true_and, List.nil_append] at correspond
        exact correspond
      · cases checked.symm.trans broken
    · intro other
      cases checked.symm.trans (check_of_not_list other)
      rfl

/-- Of three rules the first and the last cannot be built, and loading fails with the first. -/
theorem check_agrees_load_rows :
    let document : Value := .object [("rules", .list
      [.object [("type", .string "copy"), ("path", .string "a[")],
        .object [("type", .string "copy"), ("path", .string "b")], .null])]
    ∃ report, Rule.check document = .ok report ∧ report.issues =
        [⟨.config, "Invalid path: Unbalanced '[' in path segment", some "rules[0]: a["⟩,
          ⟨.config, "Rule must be an object, got NoneType", some "rules[2]"⟩] ∧
      ∃ f, Config.load document = .error (.fault f) ∧ f.kind = .config ∧
        f.message = "Invalid path: Unbalanced '[' in path segment" ∧
        f.path = some "rules[0]: a[" := by
  intro document
  have checked : Rule.check document = .ok { issues :=
      [⟨.config, "Invalid path: Unbalanced '[' in path segment", some "rules[0]: a["⟩,
        ⟨.config, "Rule must be an object, got NoneType", some "rules[2]"⟩] } := by decide +kernel
  rcases (check_agrees_load document).1 with ⟨report, same, _, fails, _⟩ | ⟨broken, _⟩
  · cases checked.symm.trans same
    obtain ⟨f, issue, rest, failed, config, first, message, path⟩ := fails rfl
    cases first
    exact ⟨_, checked, rfl, f, failed, config, message, path⟩
  · cases checked.symm.trans broken

/-- Both break off at a rule by itself whose type cannot be named. -/
theorem broken_of_single {v : Value} (unspelled : Rule.Unspelled v) :
    Rule.check (.list [v]) = .error .unwritable ∧ Config.load (.list [v]) = .error .unwritable := by
  have failed : ∀ location, Rule.load v location = .error .unwritable :=
    fun _ => Rule.load_eq_unwritable_iff.mpr unspelled
  constructor
  · simp only [Rule.check, Rule.unwrap, Value.list, Rule.issues, Rule.issue?, failed]
    rfl
  · rw [Config.load, Value.list, Rule.loadRules, Rule.loadItems_cons, failed]
    rfl

theorem unspelled_of_long {n : Nat} (long : Text.Numeral.isWritable n = false) :
    Rule.Unspelled (.object [("type", .int n)]) := ⟨_, rfl, long⟩

/-- The first integer of 4301 digits as the type of a rule: checking the document gives no report,
and loading it does not fail with a fault of the configuration. -/
theorem check_misses_long_type :
    let document : Value := .list [.object [("type", .int (10 ^ Text.Numeral.limit : Nat))]]
    Rule.check document = .error .unwritable ∧ Config.load document = .error .unwritable ∧
      (¬ ∃ report, Rule.check document = .ok report) ∧
      ¬ ∃ f, Config.load document = .error (.fault f) := by
  intro document
  obtain ⟨checked, loaded⟩ :=
    broken_of_single (unspelled_of_long Text.Numeral.isWritable_limit)
  refine ⟨checked, loaded, ?_, ?_⟩
  · rintro ⟨report, same⟩
    cases checked.symm.trans same
  · rintro ⟨f, same⟩
    cases loaded.symm.trans same

end Recast
