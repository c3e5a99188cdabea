import Recast.Proofs.Blame
import Recast.Proofs.PathChecks
import Recast.Proofs.Reconcile
import Recast.Rule.Loader

/-!
What is known of a configuration that was read from a document, and how it runs.

* `known_of_config`: its paths were read from texts, its functions are the library's own, and the
  configurations inside it are in their places;
* `load_runs`: it makes an object or fails with a fault that tells a rule, unless it copies the root
  path as one of several fields, which is found out too late.
-/

namespace Recast

/-! ## The library's own functions -/

/-- The library's own validators always answer. -/
theorem Validator.answers_of_builtIn {v : Validator} (own : v ∈ Validator.builtIn) (value : Value)
    (path : String) : ∃ answer, v.accepts value path = .ok answer := by
  simp only [builtIn, List.mem_cons, List.not_mem_nil, or_false] at own
  rcases own with rfl | rfl | rfl | rfl | rfl | rfl | rfl | rfl <;> exact ⟨_, rfl⟩

theorem Mapper.map_ofText (name : String) (change : String → String) (v : Value) :
    ∃ w, (Mapper.ofText name change).map v = .ok w := by
  cases v <;> exact ⟨_, rfl⟩

/-- A rule's functions are the library's own. -/
def Rule.Plain : Rule → Prop
  | .single copy => (∀ v ∈ copy.validators, v ∈ Validator.builtIn) ∧
      ∀ m, copy.mapper = some m → ∃ name options, Mapper.named name options = .ok m
  | .several _ | .subtree _ | .merge _ | .reconcile .. => True

/-- What is known of a rule that was read from a document. -/
structure Rule.Known (rule : Rule) : Prop where
  spelled : rule.Spelled
  plain : rule.Plain
  placed : rule.Placed

/-! ## Reading a rule -/

theorem Path.spelled_of_ofValue {v : Value} {p : Path} (h : Path.ofValue v = .ok p) :
    p.Spelled := by
  obtain ⟨text, rfl, read⟩ := Path.text_of_ofValue h
  obtain ⟨rfl, _⟩ := Path.read_eq_ok_iff.mp read
  exact read

theorem Rule.locate_eq_ok {location : String} {x : Outcome Rule} {rule : Rule} :
    Rule.locate location x = .ok rule ↔ x = .ok rule := by
  unfold locate
  split
  · split <;> simp
  · simp
  · rfl

theorem Target.path_of_ofPath {p : Path} {message : String} {t : Target}
    (h : Target.ofPath p message = .ok t) : t.path = p := by
  unfold ofPath at h
  split at h <;> cases h
  rfl

theorem builtIn_of_loadValidators {location : String} {n : Nat} {references : List Value}
    {validators : List Validator}
    (h : Rule.loadValidators location n references = .ok validators) :
    ∀ v ∈ validators, v ∈ Validator.builtIn := by
  induction references generalizing n validators with
  | nil =>
    cases h
    simp
  | cons reference rest ih =>
    obtain ⟨first, read, h⟩ := bind_eq_ok.mp h
    obtain ⟨others, more, h⟩ := bind_eq_ok.mp h
    cases h
    refine List.forall_mem_cons.mpr ⟨?_, ih more⟩
    unfold Rule.loadValidator at read
    split at read
    · split at read <;> cases read
      rename_i found
      exact List.mem_of_find?_eq_some found
    · cases read

theorem named_of_loadMapper {reference : Value} {location : String} {m : Mapper}
    (h : Rule.loadMapper reference location = .ok m) :
    ∃ name options, Mapper.named name options = .ok m := by
  unfold Rule.loadMapper at h
  split at h
  · rename_i name _
    split at h
    · cases h
    · rename_i build found
      exact ⟨name, _, by simpa [Mapper.named, found] using Outcome.adopt_eq_ok.mp h⟩
  · cases h

theorem spelled_of_copyField {source : Value} {dest : Option Value} {copy : FieldCopy}
    (h : Rule.copyField source dest = .ok copy) :
    copy.source.path.Spelled ∧ copy.dest.path.Spelled := by
  obtain ⟨start, read, h⟩ := bind_eq_ok.mp h
  split at h
  · obtain ⟨place, read', h⟩ := bind_eq_ok.mp h
    obtain ⟨rfl, rfl, _⟩ := FieldCopy.ofPaths_ok h
    exact ⟨Path.spelled_of_ofValue read, Path.spelled_of_ofValue read'⟩
  · obtain ⟨rfl, place, _⟩ := FieldCopy.ofPaths_ok h
    exact ⟨Path.spelled_of_ofValue read, place ▸ Path.spelled_of_ofValue read⟩

theorem known_of_loadCopyField {fields : Fields} {location : String} {rule : Rule}
    (h : Rule.loadCopyField fields location = .ok rule) : rule.Known ∧ rule.nested = [] := by
  obtain ⟨_, _, h⟩ := bind_eq_ok.mp h
  obtain ⟨copy, made, h⟩ := bind_eq_ok.mp h
  obtain ⟨references, _, h⟩ := bind_eq_ok.mp h
  obtain ⟨validators, read, h⟩ := bind_eq_ok.mp h
  have known : ∀ mapper : Option Mapper,
      (∀ m, mapper = some m → ∃ name options, Mapper.named name options = .ok m) →
      (Rule.single { copy with validators, mapper }).Known := by
    refine fun mapper named => ⟨?_, ⟨builtIn_of_loadValidators read, named⟩, trivial⟩
    simpa [Rule.Spelled, Rule.paths] using spelled_of_copyField made
  split at h
  · cases h
    exact ⟨known none (by simp), rfl⟩
  · obtain ⟨mapper, chosen, h⟩ := bind_eq_ok.mp h
    obtain ⟨m, loaded, rfl⟩ := map_eq_ok.mp chosen
    cases h
    exact ⟨known (some m) fun _ same => Option.some.inj same ▸ named_of_loadMapper loaded, rfl⟩

theorem mem_distinct_iff {paths kept : List Path} {p : Path} :
    p ∈ paths.foldl (fun kept p => if kept.contains p then kept else kept ++ [p]) kept ↔
      p ∈ kept ∨ p ∈ paths := by
  induction paths generalizing kept with
  | nil => simp
  | cons first rest ih =>
    rw [List.foldl_cons, ih]
    split
    · rename_i known
      have old : first ∈ kept := by simpa using known
      simp only [List.mem_cons]
      constructor
      · rintro (h | h)
        · exact Or.inl h
        · exact Or.inr (Or.inr h)
      · rintro (h | rfl | h)
        · exact Or.inl h
        · exact Or.inl old
        · exact Or.inr h
    · simp [or_assoc]

theorem known_of_copyFields {names : List Value} {rule : Rule}
    (h : Rule.copyFields names = .ok rule) : rule.Known ∧ rule.nested = [] := by
  obtain ⟨paths, read, h⟩ := bind_eq_ok.mp h
  dsimp only at h
  split at h
  · cases h
  · cases h
    refine ⟨⟨fun p mem => ?_, trivial, trivial⟩, rfl⟩
    have listed : p ∈ paths := (mem_distinct_iff.mp mem).resolve_left List.not_mem_nil
    obtain ⟨v, _, spelled⟩ := exists_of_mapM read listed
    exact Path.spelled_of_ofValue spelled

theorem reconcile_of_copyArray {path : Path} {config : Config} {idField : Value} {rule : Rule}
    (h : Rule.copyArray path config idField = .ok rule) :
    ∃ target name, target.path = path ∧ rule = .reconcile target config name := by
  obtain ⟨target, made, h⟩ := bind_eq_ok.mp h
  dsimp only at h
  split at h
  · split at h <;> cases h
    exact ⟨target, _, Target.path_of_ofPath made, rfl⟩
  · cases h

/-- What is known of the rule of an object, when as much is known of the configuration that is read
for its inside. -/
theorem known_of_loadObject {type : String} {fields : Fields}
    {nested : String → Outcome (List Rule)} {location : String} {rule : Rule}
    (h : Rule.loadObject type fields nested location = .ok rule)
    (inside : ∀ place rules, nested place = .ok rules → (Config.rules rules).Every Rule.Known) :
    rule.Known ∧ (Config.rules rule.nested).Every Rule.Known := by
  have flat : rule.Known ∧ rule.nested = [] →
      rule.Known ∧ (Config.rules rule.nested).Every Rule.Known :=
    fun ⟨known, bare⟩ => ⟨known, bare ▸ Config.every_nil⟩
  unfold Rule.loadObject at h
  split at h
  · exact flat (known_of_loadCopyField h)
  · obtain ⟨names, _, h⟩ := bind_eq_ok.mp h
    split at h
    · cases h
    · exact flat (known_of_copyFields h)
  · obtain ⟨_, _, h⟩ := bind_eq_ok.mp h
    obtain ⟨path, read, h⟩ := bind_eq_ok.mp h
    obtain ⟨target, made, rfl⟩ := map_eq_ok.mp h
    obtain rfl := Target.path_of_ofPath made
    refine flat ⟨⟨?_, trivial, trivial⟩, rfl⟩
    simpa [Rule.Spelled, Rule.paths] using Path.spelled_of_ofValue read
  · obtain ⟨path, read, h⟩ := bind_eq_ok.mp h
    cases h
    refine flat ⟨⟨?_, trivial, trivial⟩, rfl⟩
    simpa [Rule.Spelled, Rule.paths] using Path.spelled_of_ofValue read
  · obtain ⟨rules, below, h⟩ := bind_eq_ok.mp h
    obtain ⟨_, _, h⟩ := bind_eq_ok.mp h
    obtain ⟨idField, _, h⟩ := bind_eq_ok.mp h
    obtain ⟨path, read, h⟩ := bind_eq_ok.mp h
    obtain ⟨target, name, rfl, rfl⟩ := reconcile_of_copyArray h
    refine ⟨⟨?_, trivial, rfl⟩, inside _ rules below⟩
    simpa [Rule.Spelled, Rule.paths] using Path.spelled_of_ofValue read

/-! ## Reading a document -/

mutual

theorem known_of_load : (v : Value) → (location : String) → (rule : Rule) →
    Rule.load v location = .ok rule → rule.Known ∧ (Config.rules rule.nested).Every Rule.Known
  | .object fields, location, rule, h => by
    rw [Rule.load] at h
    obtain ⟨type, _, h⟩ := bind_eq_ok.mp h
    exact known_of_loadObject (Rule.locate_eq_ok.mp h)
      fun place rules => known_of_loadNested fields place rules
  | .absent, _, _, h | .null, _, _, h | .bool _, _, _, h | .int _, _, _, h | .double _, _, _, h
  | .string _, _, _, h | .array _ _, _, _, h | .foreign _ _, _, _, h => by
    rw [Rule.load] at h
    · cases h
    · simp

theorem known_of_loadNested : (fields : List (String × Value)) → (location : String) →
    (rules : List Rule) → Rule.loadNested fields location = .ok rules →
    (Config.rules rules).Every Rule.Known
  | [], _, _, h => by
    cases h
    exact Config.every_nil
  | (name, v) :: rest, location, rules, h => by
    rw [Rule.loadNested] at h
    split at h
    · exact known_of_loadRules v location rules h
    · exact known_of_loadNested rest location rules h

theorem known_of_loadRules : (v : Value) → (location : String) → (rules : List Rule) →
    Rule.loadRules v location = .ok rules → (Config.rules rules).Every Rule.Known
  | .array false items, location, rules, h => known_of_loadItems items location 0 rules h
  | .object fields, location, rules, h => known_of_loadMember fields location rules h
  | .array true _, _, _, h | .absent, _, _, h | .null, _, _, h | .bool _, _, _, h | .int _, _, _, h
  | .double _, _, _, h | .string _, _, _, h | .foreign _ _, _, _, h => nomatch h

theorem known_of_loadMember : (fields : List (String × Value)) → (location : String) →
    (rules : List Rule) → Rule.loadMember fields location = .ok rules →
    (Config.rules rules).Every Rule.Known
  | [], _, _, h => nomatch h
  | (name, v) :: rest, location, rules, h => by
    rw [Rule.loadMember] at h
    split at h
    · exact known_of_loadList v location rules h
    · exact known_of_loadMember rest location rules h

theorem known_of_loadList : (v : Value) → (location : String) → (rules : List Rule) →
    Rule.loadList v location = .ok rules → (Config.rules rules).Every Rule.Known
  | .array false items, location, rules, h => known_of_loadItems items location 0 rules h
  | .array true _, _, _, h | .object _, _, _, h | .absent, _, _, h | .null, _, _, h
  | .bool _, _, _, h | .int _, _, _, h | .double _, _, _, h | .string _, _, _, h
  | .foreign _ _, _, _, h => nomatch h

theorem known_of_loadItems : (items : List Value) → (location : String) → (position : Nat) →
    (rules : List Rule) → Rule.loadItems location position items = .ok rules →
    (Config.rules rules).Every Rule.Known
  | [], _, _, _, h => by
    cases h
    exact Config.every_nil
  | v :: rest, location, position, rules, h => by
    obtain ⟨first, read, h⟩ := bind_eq_ok.mp h
    obtain ⟨others, more, h⟩ := bind_eq_ok.mp h
    cases h
    obtain ⟨known, within⟩ := known_of_load v _ first read
    exact Config.every_cons.mpr ⟨known, within, known_of_loadItems rest location _ others more⟩

end

/-- **What is known of a configuration that was read from a document.** -/
theorem known_of_config {document : Value} {config : Config}
    (h : Config.load document = .ok config) :
    config = .rules config.toList ∧ config.Every Rule.Known := by
  obtain ⟨rules, read, rfl⟩ := map_eq_ok.mp h
  exact ⟨rfl, known_of_loadRules document _ rules read⟩

/-! ## Running a configuration that was read -/

section
variable {config : Config}

/-- Its functions raise nothing at all. -/
theorem Rule.Plain.not_raises {rule : Rule} (plain : rule.Plain) (e : Failure) :
    ¬ rule.Raises e := by
  intro raises
  cases rule with
  | single copy =>
    rcases raises with ⟨v, mem, value, path, raised⟩ | ⟨m, mapper, value, raised⟩
    · obtain ⟨answer, answered⟩ := Validator.answers_of_builtIn (plain.1 v mem) value path
      cases answered.symm.trans raised
    · obtain ⟨name, options, named⟩ := plain.2 m mapper
      obtain ⟨own, change, rfl⟩ := Mapper.eq_ofText_of_named named
      obtain ⟨w, mapped⟩ := Mapper.map_ofText own change value
      cases mapped.symm.trans raised
  | _ => exact raises

theorem sound_of_known (placed : config = .rules config.toList)
    (known : config.Every Rule.Known) : config.Sound := by
  induction config using Config.nested_induction with
  | step config ih =>
  have sound : ∀ rules : List Rule, rules ⊆ config.toList → rulesSound rules := by
    intro rules subset
    induction rules with
    | nil => trivial
    | cons rule rest here =>
      obtain ⟨mem, subset⟩ := List.cons_subset.mp subset
      refine ⟨?_, here subset⟩
      cases rule with
      | single copy =>
        intro m mapper
        obtain ⟨name, options, named⟩ := (known.of_mem mem).plain.2 m mapper
        exact Mapper.keepsJson_named named
      | reconcile path inner idField =>
        exact ih path inner idField mem (known.of_mem mem).placed (known.inside mem)
      | _ => trivial
  rw [placed]
  exact sound config.toList (List.Subset.refl _)

/-- Some rule of the configuration, at any depth, copies the root path as one of several fields. -/
def Config.CopiesRoot (config : Config) : Prop :=
  ∃ chain paths, Leads config.toList chain (.several paths) ∧ ∃ p ∈ paths, p.isRoot = true

/-- The only signal that such a configuration ends with is the refusal to copy the root path. -/
theorem signal_of_run (placed : config = .rules config.toList) (known : config.Every Rule.Known)
    {source : Value} {s : Signal} {message : String}
    (failed : Transform.run config source = .error (.signal s message)) :
    .signal s message = FieldCopy.rootRefusal ∧ config.CopiesRoot := by
  induction config using Config.nested_induction generalizing source with
  | step config ih =>
  rw [placed] at failed
  obtain ⟨i, rule, inner, selected, _, stops, unplaced⟩ := run_eq_error failed
  have mem : rule ∈ config.toList := List.mem_of_getElem? selected
  cases stops with
  | refused | refusal => cases unplaced
  | raised raises => exact absurd raises ((known.of_mem mem).plain.not_raises _)
  | unshown named long =>
    rw [((known.of_mem mem).spelled _ named).isShort] at long
    cases long
  | @root paths p named root => exact ⟨unplaced, [i], paths, .here selected, p, named, root⟩
  | @element path inner _ _ _ _ _ e _ _ _ stopped =>
    cases e with
    | fault f => cases unplaced
    | signal s' message' =>
      cases unplaced
      obtain ⟨refusal, chain, paths, leads, root⟩ :=
        ih _ _ _ mem (known.of_mem mem).placed (known.inside mem) stopped
      exact ⟨refusal, i :: chain, paths, .inside selected leads, root⟩

/-- An outcome is an object, or a fault that tells one of the configuration's rules. -/
def Config.Allows (config : Config) : Outcome Value → Prop
  | .ok output => output.isObject = true
  | .error (.fault f) => ∃ i : Nat, f.ruleIndex = some (i : Int) ∧ i < config.toList.length
  | .error (.signal _ _) => False

theorem outcome_of_transform (placed : config = .rules config.toList)
    (known : config.Every Rule.Known) (source : Value) :
    config.Allows (transform config source) ∨
      transform config source = .error FieldCopy.rootRefusal ∧ config.CopiesRoot := by
  have same : transform config source = Transform.run config source := by
    rw [placed]
    rfl
  rw [same]
  cases ran : Transform.run config source with
  | ok output =>
    rw [placed] at ran
    exact Or.inl (isObject_of_run ran)
  | error e =>
    cases e with
    | fault f =>
      obtain ⟨i, rule, inner, selected, _, _, rfl⟩ := run_eq_fault ran
      exact Or.inl ⟨i, rfl, (List.getElem?_eq_some_iff.mp selected).1⟩
    | signal s message =>
      obtain ⟨refusal, root⟩ := signal_of_run placed known ran
      exact Or.inr ⟨by rw [refusal], root⟩

theorem outcome_of_translate (placed : config = .rules config.toList)
    (known : config.Every Rule.Known) {base overrides : Value} (json : base.isJson = true)
    (json' : overrides.isJson = true) :
    config.Allows (translate base overrides (some config)) ∨
      translate base overrides (some config) = .error FieldCopy.rootRefusal ∧
        config.CopiesRoot := by
  have sound := sound_of_known placed known
  cases reshaped : transform config overrides with
  | error e =>
    have failed : translate base overrides (some config) = transform config overrides := by
      simp only [translate, reshaped, error_bind]
    rw [failed]
    exact outcome_of_transform placed known overrides
  | ok shaped =>
    have ran : Transform.run (.rules config.toList) overrides = .ok shaped := by
      rw [placed] at reshaped
      exact reshaped
    have jsonShaped := isJson_run config sound overrides shaped json' (placed ▸ ran)
    obtain ⟨others, rfl⟩ := Value.isObject_iff.mp (isObject_of_run ran)
    obtain ⟨locations, result, _, made, translated⟩ :=
      translate_total sound json jsonShaped reshaped
    rw [translated]
    refine Or.inl ?_
    cases object : base.isObject with
    | false =>
      rw [Translate.merge_replaced object] at made
      cases made
      rfl
    | true =>
      obtain ⟨fields, rfl⟩ := Value.isObject_iff.mp object
      obtain ⟨merged, _, rfl⟩ := Translate.merge_objects_ok made
      rfl

end

/-- **A configuration that was read runs safely, or copies the root path.** For every source its run
makes an object, or fails with a fault whose index is that of one of its rules; and so does a
translation of JSON. The exception is a rule that copies several fields, of which one is the root
path: such a rule is read, and its run ends with the refusal to copy the root path. -/
theorem load_runs (document : Value) (config : Config)
    (loaded : Config.load document = .ok config) :
    (∀ source, config.Allows (transform config source) ∨
      transform config source = .error FieldCopy.rootRefusal ∧ config.CopiesRoot) ∧
    ∀ base overrides, base.isJson = true → overrides.isJson = true →
      config.Allows (translate base overrides (some config)) ∨
        translate base overrides (some config) = .error FieldCopy.rootRefusal ∧
          config.CopiesRoot := by
  obtain ⟨placed, known⟩ := known_of_config loaded
  exact ⟨outcome_of_transform placed known,
    fun _ _ json json' => outcome_of_translate placed known json json'⟩

/-- A document whose nested rule requires a name: a row without one stops the second rule. -/
theorem load_runs_rows :
    let name : Value := .object
      [("type", .string "copy_field"), ("from", .string "name"),
        ("validators", .list [.string "required"])]
    let rows : Value := .object
      [("type", .string "copy_array_of_objects"), ("path", .string "rows"),
        ("id_field", .string "id"), ("rules", .list [name])]
    let document : Value :=
      .list [.object [("type", .string "copy"), ("path", .string "v")], rows]
    let source : Value := .object [("rows", .list [.object []])]
    ∃ config f, Config.load document = .ok config ∧ config.toList.length = 2 ∧
      transform config source = .error (.fault f) ∧
      (∃ i : Nat, f.ruleIndex = some (i : Int) ∧ i < 2) := by
  intro name rows document source
  let required : FieldCopy :=
    { source := ⟨⟨[.field "name"], "name"⟩, rfl⟩, dest := ⟨⟨[.field "name"], "name"⟩, rfl⟩
      validators := [Validator.required] }
  let config : Config := .rules [.subtree ⟨⟨[.field "v"], "v"⟩, rfl⟩,
    .reconcile ⟨⟨[.field "rows"], "rows"⟩, rfl⟩ (.rules [.single required]) "id"]
  have loaded : Config.load document = .ok config := rfl
  let f : Fault :=
    { cause := .validatorRejected "required" "name", path := some "rows[0].name"
      validator := some "required", ruleIndex := some 1, rulePath := [1, 0] }
  have failed : transform config source = .error (.fault f) := by decide +kernel
  rcases (load_runs document config loaded).1 source with allowed | ⟨refused, _⟩
  · rw [failed] at allowed
    exact ⟨config, f, loaded, rfl, failed, allowed⟩
  · cases failed.symm.trans refused

/-- The root path among several fields is read, and found out when the rule runs; copied by itself
it is refused at once. -/
theorem load_misses_root :
    let several : Value :=
      .list [.object [("type", .string "copy_fields"), ("fields", .list [.string ""])]]
    let single : Value := .list [.object [("type", .string "copy_field"), ("from", .string "")]]
    ∃ config, Config.load several = .ok config ∧
      transform config (.object []) = .error FieldCopy.rootRefusal ∧
      ¬ config.Allows (transform config (.object [])) ∧
      Config.load single = .error (.ofCause
        (.invalidRule "FieldCopy source and dest must not be the root path") (some "rules[0]")) := by
  intro several single
  have refused : transform (.rules [.several [⟨[], ""⟩]]) (.object []) =
      .error FieldCopy.rootRefusal := rfl
  refine ⟨.rules [.several [⟨[], ""⟩]], rfl, refused, ?_, rfl⟩
  rw [refused]
  exact id

end Recast
