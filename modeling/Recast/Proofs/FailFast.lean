import Recast.Proofs.Chains
import Recast.Proofs.FailedWrites
import Recast.Proofs.LastWrite
import Recast.Value.Decidable

/-!
How a run fails. The first rule that fails ends the run, and the fault tells which rule it was.

* `stops_of_applyRule`: every way in which a rule can fail;
* `runRules_eq_error`: a run fails at a rule before which all succeed;
* `transform_fails_fast`: the chain of a fault leads to a rule, the rules before the first index
  succeed, and the rules after it do not matter.
-/

namespace Recast

/-! ## Validators and mappers -/

/-- A validator does not accept the value at a path: it says no or it complains. -/
def Validator.Refuses (v : Validator) (value : Value) (path : String) : Prop :=
  v.accepts value path = .ok false ∨
    ∃ complaint, v.accepts value path = .error complaint ∧ complaint.isComplaint = true

namespace Validator

theorem check_eq_ok_iff {v : Validator} {value : Value} {path : String} :
    v.check value path = .ok () ↔ v.accepts value path = .ok true := by
  simp only [check, bind_eq_ok, Outcome.adopt_eq_ok]
  constructor
  · rintro ⟨accepted, asked, h⟩
    cases accepted with
    | true => exact asked
    | false => cases h
  · intro asked
    exact ⟨true, asked, rfl⟩

/-- A check that fails does so with a fault that names the validator, or as the validator itself
does. -/
theorem check_eq_error {v : Validator} {value : Value} {path : String} {e : Failure}
    (h : v.check value path = .error e) :
    (v.Refuses value path ∧ ∃ cause, cause.kind = .validation ∧
      e = .fault { cause, path := some path, validator := some v.name }) ∨
    v.accepts value path = .error e := by
  unfold check at h
  rcases bind_eq_error.mp h with asked | ⟨accepted, asked, h⟩
  · rcases Outcome.adopt_eq_error asked with ⟨complaint, raised, complains, rfl⟩ | raised
    · exact Or.inl ⟨Or.inr ⟨complaint, raised, complains⟩, _, rfl, rfl⟩
    · exact Or.inr raised
  · rw [Outcome.adopt_eq_ok] at asked
    cases accepted with
    | true => cases h
    | false =>
      cases h
      exact Or.inl ⟨Or.inl asked, _, rfl, rfl⟩

/-- Asking several fails at the first that does not accept. -/
theorem checkAll_eq_error {vs : List Validator} {value : Value} {path : String} {e : Failure}
    (h : checkAll value path vs = .error e) :
    ∃ before v after, vs = before ++ v :: after ∧
      (∀ u ∈ before, u.accepts value path = .ok true) ∧ v.check value path = .error e := by
  induction vs with
  | nil => cases h
  | cons first rest ih =>
    rcases bind_eq_error.mp h with failed | ⟨_, accepted, h⟩
    · exact ⟨[], first, rest, rfl, by simp, failed⟩
    · obtain ⟨before, v, after, rfl, all, failed⟩ := ih h
      refine ⟨first :: before, v, after, rfl, ?_, failed⟩
      exact List.forall_mem_cons.mpr ⟨check_eq_ok_iff.mp accepted, all⟩

end Validator

/-- The validators of a rule accept a value up to one that does not. -/
def FieldCopy.RefusedBy (c : FieldCopy) (value : Value) (v : Validator) : Prop :=
  ∃ before after, c.validators = before ++ v :: after ∧
    (∀ u ∈ before, u.accepts value c.source.text = .ok true) ∧ v.Refuses value c.source.text

/-- A validator of the rule or its mapper raises a failure. -/
def FieldCopy.Raises (c : FieldCopy) (e : Failure) : Prop :=
  (∃ v ∈ c.validators, ∃ value path, v.accepts value path = .error e) ∨
    ∃ m, c.mapper = some m ∧ ∃ value, m.map value = .error e

def Rule.Raises : Rule → Failure → Prop
  | .single copy, e => copy.Raises e
  | .several _, _ | .subtree _, _ | .merge _, _ | .reconcile .., _ => False

theorem FieldCopy.mapped_eq_error {c : FieldCopy} {value : Value} {e : Failure}
    (h : c.mapped value = .error e) :
    (∃ cause, cause.kind = .typeMismatch ∧ e = .ofCause cause (some c.source.text)) ∨
      ∃ m, c.mapper = some m ∧ m.map value = .error e := by
  unfold mapped at h
  split at h
  · cases h
  · rename_i m mapper
    rcases Outcome.adopt_eq_error h with ⟨complaint, _, _, rfl⟩ | raised
    · exact Or.inl ⟨_, rfl, rfl⟩
    · exact Or.inr ⟨m, mapper, raised⟩

/-! ## Rules -/

/-- Why a field cannot be copied from the root path or to it. -/
def FieldCopy.rootRefusal : Failure :=
  .signal .value "FieldCopy source and dest must not be the root path"

/-- How a rule can fail for a source: a validator refuses the value, one of its functions raises a
failure, it copies the root path as a field, it meets a value of the wrong kind or cannot map or
write it, it cannot tell why a value is not written, or its configuration fails for an element, the
first for which it does. -/
inductive Rule.Stops (source : Value) : Rule → Failure → Prop where
  | refused {copy : FieldCopy} {v : Validator} {cause : Cause}
      (refused : copy.RefusedBy (source.resolve copy.source.elements) v)
      (kind : cause.kind = .validation) :
      Stops source (.single copy)
        (.fault { cause, path := some copy.source.text, validator := some v.name })
  | raised {rule : Rule} {e : Failure} (raises : rule.Raises e) : Stops source rule e
  | root {paths : List Path} {p : Path} (mem : p ∈ paths) (root : p.isRoot = true) :
      Stops source (.several paths) FieldCopy.rootRefusal
  | refusal {rule : Rule} {cause : Cause} {path : String} (kind : cause.kind ≠ .validation) :
      Stops source rule (.ofCause cause (some path))
  | unshown {rule : Rule} {p : Path} (mem : p ∈ rule.paths)
      (long : p.elements.all Element.isShort = false) : Stops source rule Failure.unwritable
  | element {path : Target} {config : Config} {idField : String} {fixed : Bool}
      {items : List Value} {n : Nat} {fields : Fields} {e : Failure}
      (found : source.resolve path.elements = .array fixed items)
      (selected : items[n]? = some (.object fields))
      (earlier : ∀ item ∈ items.take n, ∃ output, Transform.run config item = .ok output)
      (failed : Transform.run config (.object fields) = .error e) :
      Stops source (.reconcile path config idField)
        (e.mapFault (Fault.within (path.text ++ (Element.index n).text)))

/-- A failed edit is a write that was refused, or one whose refusal cannot be told. -/
theorem Edit.apply_eq_error {e : Edit} {output : Value} {failure : Failure}
    (h : e.apply output = .error failure) :
    (∃ cause path, cause.kind ≠ .validation ∧ failure = .ofCause cause (some path)) ∨
      failure = .unwritable ∧ e.path.elements.all Element.isShort = false := by
  unfold Edit.apply Value.Written.outcome at h
  split at h
  · cases h
  · rename_i failed
    cases h
    rcases Value.failure_of_write failed with ⟨_, rfl⟩ | ⟨cause, mismatch, rfl⟩ | unshown
    · exact Or.inl ⟨.rootWrite, _, by decide, rfl⟩
    · exact Or.inl ⟨cause, _, by simp [mismatch], rfl⟩
    · exact Or.inr unshown

theorem Edit.applyAll_eq_error {es : List Edit} {output : Value} {failure : Failure}
    (h : Edit.applyAll output es = .error failure) :
    (∃ cause path, cause.kind ≠ .validation ∧ failure = .ofCause cause (some path)) ∨
      failure = .unwritable ∧ ∃ e ∈ es, e.path.elements.all Element.isShort = false := by
  induction es generalizing output with
  | nil => cases h
  | cons e rest ih =>
    rw [Edit.applyAll_cons] at h
    rcases bind_eq_error.mp h with failed | ⟨next, _, h⟩
    · rcases Edit.apply_eq_error failed with refused | ⟨unshown, long⟩
      · exact Or.inl refused
      · exact Or.inr ⟨unshown, e, List.mem_cons_self, long⟩
    · rcases ih h with refused | ⟨unshown, e', mem, long⟩
      · exact Or.inl refused
      · exact Or.inr ⟨unshown, e', List.mem_cons_of_mem e mem, long⟩

theorem FieldCopy.ofPaths_eq_error {p : Path} {e : Failure}
    (h : FieldCopy.ofPaths p p = .error e) : p.isRoot = true ∧ e = FieldCopy.rootRefusal := by
  unfold FieldCopy.ofPaths Target.ofPath at h
  cases root : p.isRoot with
  | true =>
    simp only [root] at h
    cases h
    exact ⟨rfl, rfl⟩
  | false =>
    simp only [root] at h
    cases h

/-- Shaping fails at an element that is no object, or inside an element. -/
theorem shapeElements_eq_error {shape : Value → Outcome Value} {idField : String} {path : Target}
    {n : Nat} {items : List Value} {e : Failure}
    (h : Transform.shapeElements shape idField path n items = .error e) :
    (∃ cause, cause.kind = .typeMismatch ∧ e = .ofCause cause (some path.text)) ∨
      ∃ k fields inner, items[k]? = some (.object fields) ∧
        (∀ item ∈ items.take k, ∃ output, shape item = .ok output) ∧
        shape (.object fields) = .error inner ∧
        e = inner.mapFault (Fault.within (path.text ++ (Element.index (n + k)).text)) := by
  induction items generalizing n with
  | nil => cases h
  | cons item rest ih =>
    cases item with
    | object fields =>
      unfold Transform.shapeElements at h
      rcases bind_eq_error.mp h with failed | ⟨first, made, h⟩
      · obtain ⟨inner, shaping, rfl⟩ := Outcome.mapFault_eq_error.mp failed
        unfold Transform.shapeElement at shaping
        rcases bind_eq_error.mp shaping with stopped | ⟨_, _, made⟩
        · exact Or.inr ⟨0, fields, inner, rfl, by simp, stopped, rfl⟩
        · cases made
      · obtain ⟨output, ran, _⟩ := bind_eq_ok.mp (Outcome.mapFault_eq_ok.mp made)
        rcases bind_eq_error.mp h with failed | ⟨_, _, h⟩
        · rcases ih failed with refused | ⟨k, fields', inner, selected, earlier, stopped, rfl⟩
          · exact Or.inl refused
          · refine Or.inr ⟨k + 1, fields', inner, selected,
              List.forall_mem_cons.mpr ⟨⟨output, ran⟩, earlier⟩, stopped, ?_⟩
            rw [Nat.add_right_comm, Nat.add_assoc]
        · cases h
    | _ =>
      cases h
      exact Or.inl ⟨_, rfl, rfl⟩

theorem stops_of_edits {rule : Rule} {source : Value} {e : Failure}
    (h : rule.edits source = .error e) : rule.Stops source e := by
  cases rule with
  | single copy =>
    simp only [Rule.edits, FieldCopy.edits] at h
    split at h
    · cases h
    · rcases bind_eq_error.mp h with refused | ⟨_, _, h⟩
      · obtain ⟨before, v, after, validators, accepted, failed⟩ :=
          Validator.checkAll_eq_error refused
        rcases Validator.check_eq_error failed with ⟨refuses, cause, kind, rfl⟩ | raised
        · exact .refused ⟨before, after, validators, accepted, refuses⟩ kind
        · exact .raised (Or.inl ⟨v, by simp [validators], _, _, raised⟩)
      · split at h
        · cases h
        · rcases bind_eq_error.mp h with failed | ⟨_, _, h⟩
          · rcases FieldCopy.mapped_eq_error failed with ⟨cause, kind, rfl⟩ | ⟨m, mapper, raised⟩
            · exact .refusal (by simp [kind])
            · exact .raised (Or.inr ⟨m, mapper, _, raised⟩)
          · cases h
  | several paths =>
    rcases bind_eq_error.mp h with refused | ⟨_, _, h⟩
    · obtain ⟨p, mem, failed⟩ := exists_of_mapM_error refused
      obtain ⟨root, rfl⟩ := FieldCopy.ofPaths_eq_error failed
      exact .root mem root
    · cases h
  | subtree path => cases h
  | merge path =>
    simp only [Rule.edits] at h
    split at h
    · cases h
    · cases h
    · cases h
      exact .refusal (by simp [Cause.kind])
  | reconcile path config idField =>
    simp only [Rule.edits] at h
    split at h
    · cases h
    · rename_i fixed items found
      rcases bind_eq_error.mp h with failed | ⟨_, _, h⟩
      · rcases shapeElements_eq_error failed with
          ⟨cause, kind, rfl⟩ | ⟨k, fields, inner, selected, earlier, stopped, rfl⟩
        · exact .refusal (by simp [kind])
        · rw [Nat.zero_add]
          exact .element found selected earlier stopped
      · cases h
    · cases h
      exact .refusal (by simp [Cause.kind])

/-- **How a rule fails.** -/
theorem stops_of_applyRule {rule : Rule} {source output : Value} {e : Failure}
    (object : output.isObject = true) (h : Transform.applyRule rule source output = .error e) :
    rule.Stops source e := by
  rw [applyRule_eq rule source object] at h
  rcases bind_eq_error.mp h with failed | ⟨es, made, failed⟩
  · exact stops_of_edits failed
  · rcases Edit.applyAll_eq_error failed with ⟨cause, path, kind, rfl⟩ | ⟨rfl, e, mem, long⟩
    · exact .refusal kind
    · have place : e.path.elements ∈ rule.places source := by
        rw [← edits_places made]
        exact List.mem_map_of_mem mem
      rcases path_of_place place with ⟨p, named, same⟩ | ⟨name, same⟩
      · exact .unshown named (same ▸ long)
      · rw [same] at long
        cases long

/-! ## Runs -/

/-- A run fails at one of its rules, before which all succeed. -/
theorem runRules_eq_error {rules : List Rule} {index : Nat} {source output : Value} {e : Failure}
    (h : Transform.runRules rules index source output = .error e) :
    ∃ before rule after reached inner, rules = before ++ rule :: after ∧
      Transform.runRules before index source output = .ok reached ∧
      Transform.applyRule rule source reached = .error inner ∧
      e = inner.mapFault (Fault.under (index + before.length)) := by
  induction rules generalizing index output with
  | nil => cases h
  | cons rule rest ih =>
    unfold Transform.runRules at h
    rcases bind_eq_error.mp h with failed | ⟨next, applied, h⟩
    · obtain ⟨inner, stopped, rfl⟩ := Outcome.mapFault_eq_error.mp failed
      exact ⟨[], rule, rest, output, inner, rfl, rfl, stopped, rfl⟩
    · obtain ⟨before, rule', after, reached, inner, rfl, ran, failed, rfl⟩ := ih h
      refine ⟨rule :: before, rule', after, reached, inner, rfl, ?_, failed, ?_⟩
      · simp only [Transform.runRules, applied, ok_bind, ran]
      · rw [List.length_cons, Nat.add_assoc, Nat.add_comm 1]

/-- The failure of a configuration is that of the first of its rules that fails, seen from the
configuration. -/
theorem run_eq_error {rules : List Rule} {source : Value} {e : Failure}
    (h : Transform.run (.rules rules) source = .error e) :
    ∃ (i : Nat) (rule : Rule) (inner : Failure), rules[i]? = some rule ∧
      (∃ output, Transform.run (.rules (rules.take i)) source = .ok output) ∧
      rule.Stops source inner ∧ e = inner.mapFault (Fault.under i) := by
  rw [Transform.run] at h
  obtain ⟨before, rule, after, reached, inner, rfl, ran, failed, rfl⟩ := runRules_eq_error h
  refine ⟨before.length, rule, inner, by simp, ⟨reached, ?_⟩, ?_, by rw [Nat.zero_add]⟩
  · rw [List.take_left]
    exact ran
  · exact stops_of_applyRule (isObject_of_runRules rfl ran) failed

/-- A fault of a configuration is that of one of its rules, with the rule's index in front of its
chain. -/
theorem run_eq_fault {config : Config} {source : Value} {f : Fault}
    (h : Transform.run config source = .error (.fault f)) :
    ∃ (i : Nat) (rule : Rule) (inner : Fault), config.toList[i]? = some rule ∧
      (∃ output, Transform.run (.rules (config.toList.take i)) source = .ok output) ∧
      rule.Stops source (.fault inner) ∧ f = inner.under i := by
  cases config with
  | rules rules =>
    obtain ⟨i, rule, inner, selected, ran, stops, placed⟩ := run_eq_error h
    obtain ⟨inner, rfl, rfl⟩ := Failure.mapFault_eq_fault.mp placed.symm
    exact ⟨i, rule, inner, selected, ran, stops, rfl⟩
  | misplaced v => cases h

/-! ## Chains of faults -/

/-- The functions of a rule raise no fault that has a chain of rules already. -/
def Rule.Unchained (rule : Rule) : Prop := ∀ f, rule.Raises (.fault f) → f.rulePath = []

/-- The chain of a configuration's fault leads to one of its rules. -/
theorem chain_of_run {config : Config} (own : config.Every Rule.Unchained) {source : Value}
    {f : Fault} (h : Transform.run config source = .error (.fault f)) :
    ∃ chain rule, f.rulePath = chain.map Int.ofNat ∧ Leads config.toList chain rule := by
  induction config using Config.nested_induction generalizing source f with
  | step config ih =>
  obtain ⟨i, rule, inner, selected, _, stops, rfl⟩ := run_eq_fault h
  have mem : rule ∈ config.toList := List.mem_of_getElem? selected
  have ends : inner.rulePath = [] → ∃ chain target,
      (inner.under i).rulePath = chain.map Int.ofNat ∧ Leads config.toList chain target :=
    fun ends => ⟨[i], rule, by simp [ends], .here selected⟩
  generalize failure : Failure.fault inner = e at stops
  cases stops with
  | raised raises =>
    subst failure
    exact ends (own.of_mem mem inner raises)
  | root | unshown => cases failure
  | refused | refusal =>
    apply ends
    cases failure
    rfl
  | element _ _ _ failed =>
    -- The chain goes on with that of the fault inside the element.
    obtain ⟨deep, rfl, rfl⟩ := Failure.mapFault_eq_fault.mp failure.symm
    obtain ⟨chain, target, chained, leads⟩ := ih _ _ _ mem (own.inside mem) failed
    exact ⟨i :: chain, target, by simp [chained], .inside selected leads⟩

/-! ## Runs of configurations that begin alike -/

/-- What stops the first rules stops the whole configuration. -/
theorem run_error_of_prefix {first rules : List Rule} {source : Value} {e : Failure}
    (begins : first <+: rules) (h : Transform.run (.rules first) source = .error e) :
    Transform.run (.rules rules) source = .error e := by
  obtain ⟨more, rfl⟩ := begins
  rw [Transform.run] at h ⊢
  rw [runRules_append, h, error_bind]

/-- The first rules succeed where the whole configuration does. -/
theorem run_ok_of_prefix {first rules : List Rule} {source output : Value}
    (begins : first <+: rules) (h : Transform.run (.rules rules) source = .ok output) :
    ∃ output', Transform.run (.rules first) source = .ok output' := by
  obtain ⟨more, rfl⟩ := begins
  rw [Transform.run, runRules_append] at h
  obtain ⟨output', ran, _⟩ := bind_eq_ok.mp h
  exact ⟨output', ran⟩

/-- **A fault tells where the run stopped.** Take a configuration whose functions raise no fault
that has a chain of rules already. When it fails with a fault, the fault's index is the first of its
chain; the chain leads to a rule; the rules before the index succeed by themselves; and every
configuration that has the same rules up to the index fails with the same fault. When the
configuration succeeds, so does every configuration that it begins with. -/
theorem transform_fails_fast (rules : List Rule) (source : Value)
    (own : (Config.rules rules).Every Rule.Unchained) :
    (∀ f, transform (.rules rules) source = .error (.fault f) →
      ∃ (i : Nat) (chain : List Nat) (rule : Rule), f.ruleIndex = some (i : Int) ∧
        f.rulePath = (i :: chain).map Int.ofNat ∧ i < rules.length ∧
        Leads rules (i :: chain) rule ∧
        (∃ output, transform (.rules (rules.take i)) source = .ok output) ∧
        ∀ others, rules.take (i + 1) <+: others →
          transform (.rules others) source = .error (.fault f)) ∧
    (∀ output, transform (.rules rules) source = .ok output →
      ∀ first, first <+: rules → ∃ output', transform (.rules first) source = .ok output') := by
  refine ⟨fun f failed => ?_, fun output ran first begins => run_ok_of_prefix begins ran⟩
  obtain ⟨chain, target, chained, leads⟩ := chain_of_run own failed
  simp only [transform, Transform.run] at failed
  obtain ⟨before, rule, after, reached, inner, rfl, ran, stopped, placed⟩ :=
    runRules_eq_error failed
  rw [Nat.zero_add] at placed
  obtain ⟨g, rfl, rfl⟩ := Failure.mapFault_eq_fault.mp placed.symm
  have alike : Transform.run (.rules (before ++ [rule])) source =
      .error (.fault (g.under before.length)) := by
    simp [Transform.run, runRules_append, Transform.runRules, ran, stopped, Outcome.mapFault,
      Failure.mapFault]
  have upTo : (before ++ rule :: after).take (before.length + 1) = before ++ [rule] :=
    List.take_length_add_append 1
  -- The chain found for the fault starts with the index of the rule that stopped the run.
  obtain ⟨rest, rfl⟩ : ∃ rest, chain = before.length :: rest := by
    cases chain with
    | nil => cases chained
    | cons i rest => exact ⟨rest, by rw [Int.ofNat.inj (List.cons.inj chained).1]⟩
  refine ⟨before.length, rest, target, rfl, chained, by simp, leads, ⟨reached, ?_⟩, ?_⟩
  · rw [List.take_left]
    exact ran
  · intro others begins
    rw [upTo] at begins
    exact run_error_of_prefix begins alike

/-- A row without a name stops the second rule; the rule before it succeeds by itself, and no rule
after it changes the fault. -/
theorem transform_fails_fast_row :
    let name : FieldCopy :=
      { source := ⟨⟨[.field "name"], "name"⟩, rfl⟩, dest := ⟨⟨[.field "name"], "name"⟩, rfl⟩
        validators := [Validator.required] }
    let rows : Target := ⟨⟨[.field "rows"], "rows"⟩, rfl⟩
    let v : Rule := .subtree ⟨⟨[.field "v"], "v"⟩, rfl⟩
    let rules : List Rule := [v, .reconcile rows (.rules [v, .single name]) "id"]
    let source : Value := .object [("rows", .list [.object [("name", .null)], .object []])]
    let f : Fault :=
      { cause := .validatorRejected "required" "name", path := some "rows[1].name"
        validator := some "required", ruleIndex := some 1, rulePath := [1, 1] }
    (Config.rules rules).Every Rule.Unchained ∧
    transform (.rules rules) source = .error (.fault f) ∧
    (∃ rule, Leads rules [1, 1] rule) ∧
    transform (.rules (rules ++ [.merge ⟨[], ""⟩])) source = .error (.fault f) := by
  intro name rows v rules source f
  have own : (Config.rules rules).Every Rule.Unchained := by
    simp [Config.every_cons, Config.every_nil, Rule.nested, Config.toList, rules, v, name,
      Rule.Unchained, Rule.Raises, FieldCopy.Raises, Validator.required]
  have failed : transform (.rules rules) source = .error (.fault f) := by decide +kernel
  obtain ⟨i, chain, rule, index, chained, _, leads, _, same⟩ :=
    (transform_fails_fast rules source own).1 f failed
  obtain rfl : 1 = i := Int.ofNat.inj (Option.some.inj index)
  obtain rfl : [1] = chain :=
    List.map_injective_iff.mpr (fun _ _ => Int.ofNat.inj) (List.cons.inj chained).2
  exact ⟨own, failed, ⟨rule, leads⟩, same _ ⟨[.merge ⟨[], ""⟩], rfl⟩⟩

end Recast
