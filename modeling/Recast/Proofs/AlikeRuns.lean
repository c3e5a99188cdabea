import Recast.Proofs.Alike
import Recast.Proofs.Loading

/-!
Runs on sources that are alike. A configuration whose validators and mappers are the library's own
makes outputs of them that are alike, or fails on them with the same failure (`run_alike`). What is
written into alike trees at one path leaves alike trees (`write_alike`), and what each rule writes
is alike in the two runs, though the fields that a rule merges may come in another order.
-/

namespace Recast

/-! ## Outcomes -/

/-- Two outcomes agree if both succeed, with related results, or both fail with the same failure. -/
inductive Agree {ε α : Type} (related : α → α → Prop) : Except ε α → Except ε α → Prop where
  | ok {a b : α} (h : related a b) : Agree related (.ok a) (.ok b)
  | error (e : ε) : Agree related (.error e) (.error e)

namespace Agree

variable {ε α β : Type} {related : α → α → Prop} {related' : β → β → Prop}

theorem outcomes {x y : Except ε α} (h : Agree related x y) :
    (∃ a b, related a b ∧ x = .ok a ∧ y = .ok b) ∨ ∃ e, x = .error e ∧ y = .error e := by
  cases h with
  | ok h => exact Or.inl ⟨_, _, h, rfl, rfl⟩
  | error e => exact Or.inr ⟨e, rfl, rfl⟩

theorem bind {x y : Except ε α} {f g : α → Except ε β} (h : Agree related x y)
    (next : ∀ a b, related a b → Agree related' (f a) (g b)) :
    Agree related' (x >>= f) (y >>= g) := by
  cases h with
  | ok h => exact next _ _ h
  | error e => exact Agree.error e

theorem mapFault {x y : Outcome α} (h : Agree related x y) (g : Fault → Fault) :
    Agree related (x.mapFault g) (y.mapFault g) := by
  cases h with
  | ok h => exact Agree.ok h
  | error e => exact Agree.error (e.mapFault g)

theorem mapError {ε' : Type} {x y : Except ε α} (h : Agree related x y) (g : ε → ε') :
    Agree related (x.mapError g) (y.mapError g) := by
  cases h with
  | ok h => exact Agree.ok h
  | error e => exact Agree.error (g e)

theorem adopt {x y : Outcome α} (h : Agree related x y) (toFault : String → Fault) :
    Agree related (x.adopt toFault) (y.adopt toFault) := by
  cases h with
  | ok h => exact Agree.ok h
  | error e => exact Agree.error _

theorem foldlM {γ : Type} {f g : α → γ → Except ε α} {a b : α} {cs : List γ} (h : related a b)
    (step : ∀ c ∈ cs, ∀ a b, related a b → Agree related (f a c) (g b c)) :
    Agree related (cs.foldlM f a) (cs.foldlM g b) := by
  induction cs generalizing a b with
  | nil => exact Agree.ok h
  | cons c rest ih =>
    rw [List.foldlM_cons, List.foldlM_cons]
    apply (step c List.mem_cons_self a b h).bind
    intro a b h
    exact ih h fun c mem => step c (List.mem_cons_of_mem _ mem)

end Agree

/-! ## Fields -/

namespace Fields

theorem has_set (name other : String) (v w : Value) {fields others : Fields}
    (h : has other fields = has other others) :
    has other (set name v fields) = has other (set name w others) := by
  rw [Bool.eq_iff_iff, has_set_iff, has_set_iff, h]

theorem has_cons_iff {name key : String} {v : Value} {rest : Fields} :
    has name ((key, v) :: rest) = true ↔ key = name ∨ has name rest = true := by
  rw [has, List.any_cons, Bool.or_eq_true, decide_eq_true_iff]
  rfl

theorem has_setAll_iff {name : String} {fields more : Fields} :
    has name (setAll fields more) = true ↔ has name fields = true ∨ has name more = true := by
  induction more generalizing fields with
  | nil => simp [setAll, has]
  | cons field rest ih =>
    obtain ⟨key, v⟩ := field
    have step : setAll fields ((key, v) :: rest) = setAll (set key v fields) rest := rfl
    rw [step, ih, has_set_iff, has_cons_iff, eq_comm]
    constructor
    · rintro ((named | found) | found)
      · exact Or.inr (Or.inl named)
      · exact Or.inl found
      · exact Or.inr (Or.inr found)
    · rintro (found | named | found)
      · exact Or.inl (Or.inr found)
      · exact Or.inl (Or.inl named)
      · exact Or.inr found

/-- Of fields that are set, one with a name of its own holds what it was set to, in whatever order
they come. -/
theorem get_setAll {name : String} {fields more : Fields} (distinct : (names more).Nodup) :
    get name (setAll fields more) = if has name more then get name more else get name fields := by
  induction more generalizing fields with
  | nil => rfl
  | cons field rest ih =>
    obtain ⟨key, v⟩ := field
    have step : setAll fields ((key, v) :: rest) = setAll (set key v fields) rest := rfl
    obtain ⟨fresh, later⟩ := List.nodup_cons.mp distinct
    rw [step, ih later]
    by_cases named : key = name
    · subst named
      have lacks : ¬ has key rest = true := fun found => fresh (has_iff.mp found)
      rw [if_neg lacks, if_pos (has_cons_iff.mpr (Or.inl rfl)), get_set_self, get, if_pos rfl]
    · have same : has name ((key, v) :: rest) = has name rest := by
        rw [Bool.eq_iff_iff, has_cons_iff, or_iff_right named]
      rw [same, get_set_of_ne (Ne.symm named), get, if_neg named]

end Fields

namespace Value

section
variable {v w : Value}

theorem Alike.set {fields others : Fields} (h : Alike (object fields) (object others))
    (value : Alike v w) (name : String) :
    Alike (object (Fields.set name v fields)) (object (Fields.set name w others)) := by
  apply Alike.ofFields
  · exact (isJson_object_iff.mp (isJson_set h.json value.json)).1
  · exact (isJson_object_iff.mp (isJson_set h.json' value.json')).1
  · exact fun other => Fields.has_set name other v w (h.has other)
  · intro other found
    by_cases same : other = name
    · subst same
      rw [Fields.get_set_self, Fields.get_set_self]
      exact value
    · rw [Fields.get_set_of_ne same, Fields.get_set_of_ne same]
      rcases Fields.has_set_iff.mp found with named | found
      · exact absurd named same
      · exact h.get found

/-- Setting alike fields in alike objects leaves alike objects, in whatever order they are set. -/
theorem Alike.setAll {fields others more more' : Fields}
    (h : Alike (object fields) (object others)) (set : Alike (object more) (object more')) :
    Alike (object (Fields.setAll fields more)) (object (Fields.setAll others more')) := by
  obtain ⟨distinct, json⟩ := isJson_object_iff.mp set.json
  obtain ⟨distinct', json'⟩ := isJson_object_iff.mp set.json'
  apply Alike.ofFields
  · exact (isJson_object_iff.mp (isJson_setAll h.json json)).1
  · exact (isJson_object_iff.mp (isJson_setAll h.json' json')).1
  · intro name
    rw [Bool.eq_iff_iff, Fields.has_setAll_iff, Fields.has_setAll_iff, h.has, set.has]
  · intro name found
    rw [Fields.get_setAll distinct, Fields.get_setAll distinct', ← set.has]
    split
    · rename_i among
      exact set.get among
    · rename_i other
      exact h.get ((Fields.has_setAll_iff.mp found).resolve_right other)

theorem setItem_alike {items others : List Value} (members : List.Forall₂ Alike items others)
    (value : Alike v w) (n : Nat) :
    List.Forall₂ Alike (setItem n v items) (setItem n w others) := by
  induction members generalizing n with
  | nil => exact List.Forall₂.cons value List.Forall₂.nil
  | cons first rest ih =>
    cases n with
    | zero => exact List.Forall₂.cons value rest
    | succ n => exact List.Forall₂.cons first (ih n)

end

/-! ## Writing -/

section
variable {a b : Value}

theorem Alike.isList (h : Alike a b) : a.isList = b.isList := by
  have kind := h.kind
  cases a with
  | array fixed items =>
    obtain ⟨others, rfl, _⟩ := h.exists_array
    rfl
  | _ => cases b <;> first | rfl | cases kind

theorem Alike.describe (h : Alike a b) : a.describe = b.describe := by
  have part := kind?_eq_normal (isPart_of_isJson h.json)
  have kind := h.kind
  rw [part] at kind
  simp only [Value.describe, part, ← kind]

theorem Alike.isObject (h : Alike a b) : a.isObject = b.isObject := by
  rw [Bool.eq_iff_iff, isObject_iff_kind, isObject_iff_kind, h.kind]

theorem PartsAlike.suits (h : PartsAlike a b) (e : Element) : a.suits e = b.suits e := by
  rcases h with ⟨rfl, rfl⟩ | alike
  · rfl
  · cases e with
    | field name => exact alike.isObject
    | index n => exact alike.isList

theorem Alike.refusal? (h : Alike a b) (e : Element) : a.refusal? e = b.refusal? e := by
  have kind := h.kind
  cases a with
  | object fields =>
    obtain ⟨others, rfl⟩ := h.exists_object
    cases e <;> rfl
  | array fixed items =>
    obtain ⟨others, rfl, members⟩ := h.exists_array
    cases e with
    | field name => rfl
    | index n => cases fixed <;> simp [Value.refusal?, members.length_eq]
  | _ => cases e <;> cases b <;> first | rfl | cases kind

theorem Alike.member (h : Alike a b) (e : Element) : PartsAlike (a.member e) (b.member e) := by
  have selected := h.select e
  cases a with
  | array fixed items =>
    obtain ⟨others, rfl, members⟩ := h.exists_array
    cases fixed with
    | true => exact PartsAlike.absent
    | false => exact selected
  | _ =>
    have kind := h.kind
    cases b with
    | array => cases kind
    | _ => exact selected

theorem Alike.place {v w : Value} (h : Alike a b) (value : Alike v w) {e : Element}
    (suits : a.suits e = true) : Alike (a.place e v) (b.place e w) := by
  rcases suits_iff.mp suits with ⟨name, fields, rfl, rfl⟩ | ⟨n, items, rfl, rfl⟩
  · obtain ⟨others, rfl⟩ := h.exists_object
    exact h.set value name
  · obtain ⟨others, rfl, members⟩ := h.exists_array
    exact Alike.ofItems (setItem_alike members value n)

theorem alike_empty (e : Element) : Alike (empty e) (empty e) := by
  cases e <;> exact Alike.refl rfl rfl

theorem put_alike {v w : Value} (value : Alike v w) (h : Alike a b) (first : Element)
    (rest : List Element) :
    (put first rest v a).2 = (put first rest w b).2 ∧
      ((put first rest v a).2 = none → Alike (put first rest v a).1 (put first rest w b).1) := by
  induction rest generalizing first a b with
  | nil =>
    have refused := h.refusal? first
    cases admitted : a.refusal? first with
    | some cause =>
      rw [admitted] at refused
      simp [put, admitted, ← refused]
    | none =>
      rw [admitted] at refused
      simp only [put, admitted, ← refused, true_and]
      intro _
      exact h.place value (suits_of_refusal? admitted)
  | cons next rest ih =>
    have refused := h.refusal? first
    cases admitted : a.refusal? first with
    | some cause =>
      rw [admitted] at refused
      simp [put, admitted, ← refused]
    | none =>
      rw [admitted] at refused
      have member := h.member first
      have suits := member.suits next
      have entered : Alike (if (a.member first).suits next then a.member first else empty next)
          (if (b.member first).suits next then b.member first else empty next) := by
        rw [← suits]
        split
        · rename_i suits
          apply member.alike
          cases absent : a.member first with
          | absent =>
            rw [absent] at suits
            cases next <;> cases suits
          | _ => rfl
        · exact alike_empty next
      obtain ⟨failed, written⟩ := ih entered next
      simp only [put, admitted, ← refused]
      refine ⟨failed, fun succeeded => ?_⟩
      exact h.place (written succeeded) (suits_of_refusal? admitted)

/-- Alike values that are written to one place in alike trees leave alike trees, or are refused for
the same reason. -/
theorem write_alike {v w : Value} (value : Alike v w) (h : Alike a b) (path : Path) :
    Agree Alike (a.write path v).outcome (b.write path w).outcome := by
  cases elements : path.elements with
  | nil =>
    simp only [write, elements, Written.outcome]
    exact Agree.error _
  | cons first rest =>
    obtain ⟨same, written⟩ := put_alike value h first rest
    rw [outcome_write elements, outcome_write elements]
    rcases left : put first rest v a with ⟨after, failed⟩
    rcases right : put first rest w b with ⟨after', failed'⟩
    rw [left, right] at same written
    obtain rfl : failed = failed' := same
    cases failed with
    | none => exact Agree.ok (written rfl)
    | some cause => exact Agree.error _

end

end Value

open Value

/-! ## Copying a field -/

section
variable {a b : Value}

theorem Validator.isNonEmptyString_alike (h : PartsAlike a b) :
    isNonEmptyString a = isNonEmptyString b := by
  rcases h with ⟨rfl, rfl⟩ | alike
  · rfl
  · have kind := alike.kind
    cases a with
    | string s => rw [alike.eq_string]
    | _ => cases b <;> first | rfl | cases kind

/-- The library's own validators answer alike for values that are alike. -/
theorem Validator.accepts_alike {v : Validator} (own : v ∈ builtIn) (h : PartsAlike a b)
    (path : String) : v.accepts a path = v.accepts b path := by
  have kind : ∀ k, hasKind k a = hasKind k b := fun k => by rw [hasKind, hasKind, h.kind]
  simp only [builtIn, List.mem_cons, List.not_mem_nil, or_false] at own
  rcases own with rfl | rfl | rfl | rfl | rfl | rfl | rfl | rfl
  · exact congrArg Except.ok (kind .array)
  · exact congrArg Except.ok (kind .boolean)
  · exact congrArg Except.ok (isNonEmptyString_alike h)
  · simp only [ofTest, h.isNull]
  · exact congrArg Except.ok (kind .number)
  · exact congrArg Except.ok (kind .object)
  · simp only [required, h.isAbsent]
  · exact congrArg Except.ok (kind .string)

theorem Validator.checkAll_alike {validators : List Validator} (own : ∀ v ∈ validators, v ∈ builtIn)
    (h : PartsAlike a b) (path : String) :
    checkAll a path validators = checkAll b path validators := by
  induction validators with
  | nil => rfl
  | cons v rest ih =>
    obtain ⟨first, later⟩ := List.forall_mem_cons.mp own
    simp only [checkAll, check, accepts_alike first h, ih later]

theorem Mapper.map_alike (name : String) (change : String → String) (h : Alike a b) :
    Agree Alike ((ofText name change).map a) ((ofText name change).map b) := by
  cases a with
  | string s =>
    rw [h.eq_string]
    exact Agree.ok (Alike.refl rfl rfl)
  | _ =>
    have kind := h.kind
    cases b with
    | string => cases kind
    | _ => exact Agree.ok h

theorem FieldCopy.mapped_alike {c : FieldCopy} (plain : (Rule.single c).Plain) (h : Alike a b) :
    Agree Alike (c.mapped a) (c.mapped b) := by
  unfold mapped
  cases chosen : c.mapper with
  | none => exact Agree.ok h
  | some m =>
    obtain ⟨name, options, named⟩ := plain.2 m chosen
    obtain ⟨own, change, rfl⟩ := Mapper.eq_ofText_of_named named
    exact (Mapper.map_alike own change h).adopt _

theorem FieldCopy.apply_alike {c : FieldCopy} (plain : (Rule.single c).Plain) {out out' : Value}
    (h : Alike a b) (outputs : Alike out out') : Agree Alike (c.apply a out) (c.apply b out') := by
  have found : PartsAlike (a.resolve c.source.elements) (b.resolve c.source.elements) :=
    PartsAlike.resolve (Or.inr h) _
  have absent := found.isAbsent
  simp only [apply, ← absent, Validator.checkAll_alike plain.1 found]
  split
  · exact Agree.ok outputs
  · cases Validator.checkAll (b.resolve c.source.elements) c.source.text c.validators with
    | error e => exact Agree.error e
    | ok _ =>
      rw [ok_bind, ok_bind]
      split
      · exact Agree.ok outputs
      · rename_i present
        apply (mapped_alike plain (found.alike (by simpa using present))).bind
        intro v w value
        exact write_alike value outputs c.dest

end

/-! ## The other rules -/

namespace Transform

section
variable {a b out out' : Value} (h : Alike a b) (outputs : Alike out out')

include h outputs

theorem copyFields_alike (paths : List Path) :
    Agree Alike (copyFields paths a out) (copyFields paths b out') := by
  unfold copyFields
  cases made : paths.mapM fun p => FieldCopy.ofPaths p p with
  | error e => exact Agree.error e
  | ok copies =>
    rw [ok_bind, ok_bind]
    apply Agree.foldlM outputs
    intro c mem out out' outputs
    obtain ⟨p, _, copied⟩ := exists_of_mapM made mem
    obtain ⟨_, _, validators, mapper⟩ := FieldCopy.ofPaths_ok copied
    have plain : (Rule.single c).Plain := ⟨by simp [validators], by simp [mapper]⟩
    exact FieldCopy.apply_alike plain h outputs

theorem copySubtree_alike (path : Target) :
    Agree Alike (copySubtree path a out) (copySubtree path b out') := by
  have found : PartsAlike (a.resolve path.elements) (b.resolve path.elements) :=
    PartsAlike.resolve (Or.inr h) _
  simp only [copySubtree, ← found.isAbsent]
  split
  · exact Agree.ok outputs
  · rename_i present
    exact write_alike (found.alike (by simpa using present)) outputs path

theorem mergeObject_alike (path : Path) :
    Agree Alike (mergeObject path a out) (mergeObject path b out') := by
  have found : PartsAlike (a.resolve path.elements) (b.resolve path.elements) :=
    PartsAlike.resolve (Or.inr h) _
  unfold mergeObject
  rcases found with ⟨absent, absent'⟩ | found
  · rw [absent, absent']
    exact Agree.ok outputs
  · generalize a.resolve path.elements = v at found
    generalize b.resolve path.elements = w at found
    have kind := found.kind
    cases v with
    | object more =>
      obtain ⟨more', rfl⟩ := found.exists_object
      have kind := outputs.kind
      cases out with
      | object fields =>
        obtain ⟨others, rfl⟩ := outputs.exists_object
        exact Agree.ok (outputs.setAll found)
      | _ =>
        cases out' with
        | object => cases kind
        | _ => exact Agree.ok outputs
    | absent | foreign => cases found.json
    | _ =>
      have described := found.describe
      cases w with
      | absent | object => cases kind
      | _ =>
        simp only [described]
        exact Agree.error _

end

/-! ## Elements -/

/-- A function that makes elements treats sources that are alike alike. -/
def Regards (shape : Value → Outcome Value) : Prop :=
  ∀ a b, Alike a b → Agree Alike (shape a) (shape b)

section
variable {shape : Value → Outcome Value} (regards : Regards shape) (idField : String)

include regards

theorem shapeElement_alike {fields others : Fields} (h : Alike (object fields) (object others)) :
    Agree Alike (shapeElement shape idField fields) (shapeElement shape idField others) := by
  have empty : Alike (object []) (object []) := Alike.refl rfl rfl
  apply (regards _ _ h).bind
  intro shaped shaped' made
  have members : Alike (object shaped.fields) (object shaped'.fields) := by
    have kind := made.kind
    cases shaped with
    | object more =>
      obtain ⟨more', rfl⟩ := made.exists_object
      exact made
    | _ =>
      cases shaped' with
      | object => cases kind
      | _ => exact empty
  apply Agree.ok
  rw [← h.has]
  split
  · rename_i found
    have id : Alike (object (Fields.set idField (Fields.get idField fields) []))
        (object (Fields.set idField (Fields.get idField others) [])) :=
      empty.set (h.get found) idField
    exact id.setAll members
  · exact empty.setAll members

theorem shapeElements_alike (path : Target) {items others : List Value}
    (members : List.Forall₂ Alike items others) (n : Nat) :
    Agree (List.Forall₂ Alike) (shapeElements shape idField path n items)
      (shapeElements shape idField path n others) := by
  induction members generalizing n with
  | nil => exact Agree.ok List.Forall₂.nil
  | @cons a b _ _ first _ ih =>
    have kind := first.kind
    cases a with
    | object fields =>
      obtain ⟨others, rfl⟩ := first.exists_object
      apply ((shapeElement_alike regards idField first).mapFault _).bind
      intro shaped shaped' made
      apply (ih (n + 1)).bind
      intro rest rest' made'
      exact Agree.ok (List.Forall₂.cons made made')
    | _ =>
      have described := first.describe
      cases b with
      | object => cases kind
      | _ =>
        simp only [shapeElements, described]
        exact Agree.error _

theorem copyArray_alike (path : Target) {a b out out' : Value} (h : Alike a b)
    (outputs : Alike out out') :
    Agree Alike (copyArray shape idField path a out) (copyArray shape idField path b out') := by
  have found : PartsAlike (a.resolve path.elements) (b.resolve path.elements) :=
    PartsAlike.resolve (Or.inr h) _
  unfold copyArray
  rcases found with ⟨absent, absent'⟩ | found
  · rw [absent, absent']
    exact Agree.ok outputs
  · generalize a.resolve path.elements = v at found
    generalize b.resolve path.elements = w at found
    have kind := found.kind
    cases v with
    | array fixed items =>
      obtain ⟨others, rfl, members⟩ := found.exists_array
      apply (shapeElements_alike regards idField path members 0).bind
      intro shaped shaped' made
      exact write_alike (Alike.ofItems made) outputs path
    | absent | foreign => cases found.json
    | _ =>
      have described := found.describe
      cases w with
      | absent | array => cases kind
      | _ =>
        simp only [described]
        exact Agree.error _

end

/-! ## Runs -/

/-- One rule treats sources and outputs that are alike alike, if a configuration inside it does. -/
theorem applyRule_alike {rule : Rule} (plain : rule.Plain)
    (inside : ∀ path config idField, rule = .reconcile path config idField → Regards (run config))
    {a b out out' : Value} (h : Alike a b) (outputs : Alike out out') :
    Agree Alike (applyRule rule a out) (applyRule rule b out') := by
  cases rule with
  | single copy =>
    rw [applyRule, applyRule]
    exact FieldCopy.apply_alike plain h outputs
  | several paths =>
    rw [applyRule, applyRule]
    exact copyFields_alike h outputs paths
  | subtree path =>
    rw [applyRule, applyRule]
    exact copySubtree_alike h outputs path
  | merge path =>
    rw [applyRule, applyRule]
    exact mergeObject_alike h outputs path
  | reconcile path config idField =>
    rw [applyRule, applyRule]
    exact copyArray_alike (inside path config idField rfl) idField path h outputs

theorem runRules_alike {rules : List Rule} (each : ∀ rule ∈ rules, ∀ a b out out', Alike a b →
    Alike out out' → Agree Alike (applyRule rule a out) (applyRule rule b out'))
    {a b out out' : Value} (h : Alike a b) (outputs : Alike out out') (index : Nat) :
    Agree Alike (runRules rules index a out) (runRules rules index b out') := by
  induction rules generalizing out out' index with
  | nil => exact Agree.ok outputs
  | cons rule rest ih =>
    obtain ⟨first, later⟩ := List.forall_mem_cons.mp each
    apply ((first a b out out' h outputs).mapFault _).bind
    intro next next' outputs
    exact ih later outputs (index + 1)

/-- **Runs.** A configuration whose validators and mappers are the library's own makes of sources
that are alike outputs that are alike, or it fails on them with the same failure. -/
theorem run_alike (config : Config) : config.Every Rule.Plain → Regards (run config) := by
  induction config using Config.nested_induction with
  | step config ih =>
    intro plain a b h
    cases config with
    | misplaced v => exact Agree.error _
    | rules rules =>
      rw [run, run]
      apply runRules_alike _ h (Alike.refl rfl rfl)
      intro rule mem a b out out' h outputs
      apply applyRule_alike (plain.of_mem mem) _ h outputs
      rintro path inner idField rfl
      exact ih path inner idField mem (plain.inside mem)

end Transform

theorem transform_alike {config : Config} (plain : config.Every Rule.Plain) {a b : Value}
    (h : Alike a b) : Agree Alike (transform config a) (transform config b) := by
  cases config with
  | misplaced v => exact Agree.error _
  | rules rules => exact Transform.run_alike _ plain a b h

end Recast
