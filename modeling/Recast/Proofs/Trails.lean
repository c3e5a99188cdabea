import Recast.Proofs.Blame
import Recast.Proofs.Locations

/-!
Where arrays are reconciled. A trail tells the way into a document in steps, and the step from an
array into its elements is none of the steps into a field. A location says the same with names
alone, so one name stands for the step into elements.

* `idFieldAt_isSome_iff`: a configuration has an identifier field for exactly the trails that its
  rules lead to;
* `idField?_locations`: it is the one that counts at the trail's location, where no field has the
  name that stands for the step into elements.
-/

namespace Recast

/-- A step on the way into a document: to a field, or from a reconciled array to its elements. -/
inductive Trail.Step where
  | field (name : String)
  | element
deriving DecidableEq

abbrev Trail := List Trail.Step

/-- The name that stands for a step in a location. -/
def Trail.Step.name : Trail.Step → String
  | .field name => name
  | .element => Location.element

namespace Trail

def location (trail : Trail) : Location := trail.map Step.name

def ofNames (names : List String) : Trail := names.map .field

/-- No field on the way has the name that stands for the step into elements. -/
def Unmarked (trail : Trail) : Prop := .field Location.element ∉ trail

theorem Unmarked.append {t u : Trail} (ht : t.Unmarked) (hu : u.Unmarked) : (t ++ u).Unmarked :=
  fun mem => (List.mem_append.mp mem).elim ht hu

@[simp] theorem location_append (t u : Trail) : location (t ++ u) = t.location ++ u.location :=
  List.map_append

@[simp] theorem location_ofNames (names : List String) : (ofNames names).location = names := by
  simp [location, ofNames, Step.name, Function.comp_def]

/-- Without such fields, locations tell trails apart. -/
theorem location_inj {t u : Trail} (ht : t.Unmarked) (hu : u.Unmarked)
    (same : t.location = u.location) : t = u := by
  induction t generalizing u with
  | nil => exact (List.map_eq_nil_iff.mp same.symm).symm
  | cons step t ih =>
    cases u with
    | nil => cases same
    | cons step' u =>
      simp only [Unmarked, List.mem_cons, not_or] at ht hu
      obtain ⟨name, rest⟩ := List.cons.inj same
      rw [ih ht.2 hu.2 rest]
      cases step <;> cases step' <;> simp_all [Step.name]

end Trail

/-! ## The trails that rules lead to -/

mutual

/-- The identifier field of the array at a trail, if a configuration reconciles it. Of several rules
that do the last counts. -/
def Config.idFieldAt : Config → Trail → Option String
  | .rules rules, trail => rulesIdFieldAt rules trail
  | .misplaced _, _ => none

def rulesIdFieldAt : List Rule → Trail → Option String
  | [], _ => none
  | rule :: rest, trail => (rulesIdFieldAt rest trail).or (rule.idFieldAt trail)

/-- A rule reconciles the array at its path, unless an index leads there, and the arrays that the
configuration inside it reconciles in the elements. -/
def Rule.idFieldAt : Rule → Trail → Option String
  | .reconcile path config idField, trail =>
    if path.path.hasIndex then none
    else
      match trail.dropPrefix? (Trail.ofNames path.path.fieldNames) with
      | some [] => some idField
      | some (.element :: below) => config.idFieldAt below
      | _ => none
  | .single _, _ => none
  | .several _, _ => none
  | .subtree _, _ => none
  | .merge _, _ => none

end

/-- Some rule reconciles the array at a trail by an identifier field: the trail is the names of the
rule's path, behind the trail of the rule around it and a step into elements. -/
inductive Reconciles : List Rule → Trail → String → Prop where
  | here {rules : List Rule} {path : Target} {config : Config} {idField : String}
      (mem : .reconcile path config idField ∈ rules) (named : path.path.hasIndex = false) :
      Reconciles rules (Trail.ofNames path.path.fieldNames) idField
  | inside {rules : List Rule} {path : Target} {config : Config} {own idField : String}
      {trail : Trail} (mem : .reconcile path config own ∈ rules)
      (named : path.path.hasIndex = false) (below : Reconciles config.toList trail idField) :
      Reconciles rules (Trail.ofNames path.path.fieldNames ++ .element :: trail) idField

theorem dropPrefix?_append (t u : Trail) : (t ++ u).dropPrefix? t = some u :=
  List.dropPrefix?_eq_some_iff.mpr ⟨t, rfl, by simp⟩

theorem eq_append_of_dropPrefix? {t u below : Trail} (h : u.dropPrefix? t = some below) :
    u = t ++ below := by
  obtain ⟨t', rfl, same⟩ := List.dropPrefix?_eq_some_iff.mp h
  rw [beq_iff_eq.mp same]

theorem Rule.idFieldAt_eq_some {rule : Rule} {trail : Trail} {idField : String}
    (h : rule.idFieldAt trail = some idField) :
    ∃ path config own, rule = .reconcile path config own ∧ path.path.hasIndex = false ∧
      (trail = Trail.ofNames path.path.fieldNames ∧ own = idField ∨
        ∃ below, trail = Trail.ofNames path.path.fieldNames ++ .element :: below ∧
          config.idFieldAt below = some idField) := by
  cases rule with
  | reconcile path config own =>
    rw [Rule.idFieldAt] at h
    split at h
    · cases h
    · rename_i named
      refine ⟨path, config, own, rfl, by simpa using named, ?_⟩
      split at h
      · rename_i whole
        cases h
        exact Or.inl ⟨by simpa using eq_append_of_dropPrefix? whole, rfl⟩
      · rename_i below into
        exact Or.inr ⟨below, eq_append_of_dropPrefix? into, h⟩
      · cases h
  | _ => cases h

theorem exists_of_rulesIdFieldAt {rules : List Rule} {trail : Trail} {idField : String}
    (h : rulesIdFieldAt rules trail = some idField) :
    ∃ rule ∈ rules, rule.idFieldAt trail = some idField := by
  induction rules with
  | nil => cases h
  | cons rule rest ih =>
    rw [rulesIdFieldAt, Option.or_eq_some_iff] at h
    rcases h with later | ⟨_, first⟩
    · obtain ⟨rule', mem, found⟩ := ih later
      exact ⟨rule', List.mem_cons_of_mem rule mem, found⟩
    · exact ⟨rule, List.mem_cons_self, first⟩

theorem isSome_of_mem {rules : List Rule} {rule : Rule} {trail : Trail} (mem : rule ∈ rules)
    (found : (rule.idFieldAt trail).isSome = true) :
    (rulesIdFieldAt rules trail).isSome = true := by
  induction rules with
  | nil => cases mem
  | cons first rest ih =>
    rw [rulesIdFieldAt, Option.isSome_or, Bool.or_eq_true]
    rcases List.mem_cons.mp mem with rfl | mem
    · exact Or.inr found
    · exact Or.inl (ih mem)

theorem Config.idFieldAt_eq {config : Config} (trail : Trail) :
    config.idFieldAt trail = rulesIdFieldAt config.toList trail := by
  cases config <;> rfl

/-- The field that counts at a trail is that of a rule that leads there. -/
theorem reconciles_of_idFieldAt {config : Config} {trail : Trail} {idField : String}
    (h : config.idFieldAt trail = some idField) : Reconciles config.toList trail idField := by
  induction config using Config.nested_induction generalizing trail idField with
  | step config ih =>
  rw [Config.idFieldAt_eq] at h
  obtain ⟨rule, mem, found⟩ := exists_of_rulesIdFieldAt h
  obtain ⟨path, inner, own, rfl, named, ⟨rfl, rfl⟩ | ⟨below, rfl, deeper⟩⟩ :=
    Rule.idFieldAt_eq_some found
  · exact .here mem named
  · exact .inside mem named (ih path inner own mem deeper)

/-- A configuration has an identifier field for exactly the trails that its rules lead to. -/
theorem idFieldAt_isSome_iff {config : Config} {trail : Trail} :
    (config.idFieldAt trail).isSome = true ↔
      ∃ idField, Reconciles config.toList trail idField := by
  constructor
  · intro h
    obtain ⟨idField, found⟩ := Option.isSome_iff_exists.mp h
    exact ⟨idField, reconciles_of_idFieldAt found⟩
  · rintro ⟨idField, leads⟩
    rw [Config.idFieldAt_eq]
    generalize config.toList = rules at leads ⊢
    induction leads with
    | @here rules path config idField mem named =>
      have whole := dropPrefix?_append (Trail.ofNames path.path.fieldNames) []
      rw [List.append_nil] at whole
      exact isSome_of_mem mem (by simp [Rule.idFieldAt, named, whole])
    | @inside rules path config own idField trail mem named _ ih =>
      rw [← Config.idFieldAt_eq] at ih
      exact isSome_of_mem mem (by simp [Rule.idFieldAt, named, dropPrefix?_append, ih])

/-! ## Locations as trails -/

/-- The path to the array of a rule has no field with the name for the step into elements. -/
def Rule.Unmarked : Rule → Prop
  | .reconcile path _ _ => Location.element ∉ path.path.fieldNames
  | .single _ | .several _ | .subtree _ | .merge _ => True

theorem Rule.Spelled.unmarked {rule : Rule} (spelled : rule.Spelled) : rule.Unmarked := by
  cases rule with
  | reconcile path config idField =>
    intro mem
    obtain ⟨e, there, named⟩ := List.mem_filterMap.mp mem
    have read := (Path.read_eq_ok_iff.mp (spelled path.path (by simp [Rule.paths]))).2
    cases e with
    | field name =>
      cases named
      exact (read.plain_of_mem there '[' (by decide)).2.1 rfl
    | index n => cases named
  | _ => trivial

theorem Locations.idField?_append (first others : Locations) (here : Location) :
    Locations.idField? (first ++ others) here =
      (others.idField? here).or (first.idField? here) := by
  simp [Locations.idField?, List.lookup_append]

theorem Locations.idField?_cons (array : Location) (idField : String) (rest : Locations)
    (here : Location) : Locations.idField? ((array, idField) :: rest) here =
      (rest.idField? here).or (if here = array then some idField else none) := by
  rw [← List.singleton_append, Locations.idField?_append]
  congr 1
  by_cases same : here = array
  · simp [Locations.idField?, same]
  · simp [Locations.idField?, List.lookup_cons, beq_false_of_ne same, same]

theorem Locations.idField?_of_not_below {locations : Locations} {start here : Location}
    (below : ∀ e ∈ locations, start <+: e.1) (apart : ¬ start <+: here) :
    locations.idField? here = none := by
  refine List.lookup_eq_none_iff.mpr fun e mem => ?_
  have placed := below e (List.mem_reverse.mp mem)
  simp only [bne_iff_ne, ne_eq]
  rintro rfl
  exact apart placed

section
variable {array : Location} {idField : String} {inner : Locations}

/-- Outside of the array neither its entry nor those of its elements count. -/
theorem idField?_outside (below : ∀ e ∈ inner, array ++ [Location.element] <+: e.1)
    {here : Location} (apart : ¬ array <+: here) :
    Locations.idField? ((array, idField) :: inner) here = none := by
  have other : here ≠ array := by
    rintro rfl
    exact apart (List.prefix_refl _)
  rw [Locations.idField?_cons, if_neg other, Option.or_none]
  exact Locations.idField?_of_not_below below fun inside =>
    apart ((List.prefix_append _ _).trans inside)

/-- At the array its entry counts, in its elements theirs, and in its fields none does. -/
theorem idField?_inside (below : ∀ e ∈ inner, array ++ [Location.element] <+: e.1)
    (rest : Location) :
    Locations.idField? ((array, idField) :: inner) (array ++ rest) =
      match rest with
      | [] => some idField
      | name :: _ => if name = Location.element then inner.idField? (array ++ rest) else none := by
  rw [Locations.idField?_cons]
  cases rest with
  | nil =>
    have apart : ¬ array ++ [Location.element] <+: array := fun inside => by
      have length := inside.length_le
      rw [List.length_append, List.length_singleton] at length
      omega
    rw [List.append_nil, Locations.idField?_of_not_below below apart, if_pos rfl, Option.none_or]
  | cons name rest =>
    rw [if_neg (by simp), Option.or_none]
    by_cases into : name = Location.element
    · simp [into]
    · simp only [into, if_false]
      refine Locations.idField?_of_not_below below fun inside => into ?_
      have first := (List.prefix_append_right_inj _).mp inside
      exact (List.cons_prefix_cons.mp first).1.symm

end

/-- Names that a location starts with are the first steps of its trail. -/
theorem Trail.starts_of_prefix {names : List String} {trail : Trail}
    (plain : Location.element ∉ names) (clear : trail.Unmarked) (h : names <+: trail.location) :
    ∃ rest, trail = ofNames names ++ rest := by
  obtain ⟨first, ⟨rest, rfl⟩, same⟩ := List.prefix_map_iff.mp h
  refine ⟨rest, ?_⟩
  have unmarked : (ofNames names).Unmarked := by simpa [Unmarked, ofNames] using plain
  rw [location_inj unmarked (fun mem => clear (List.mem_append_left rest mem))
    (by rw [location_ofNames, same]; rfl)]

mutual

/-- The location of a trail has the identifier field that the trail has. -/
theorem idField?_locations : (config : Config) → config.Every Rule.Unmarked →
    (here : Location) → (locations : Locations) → config.locations here = .ok locations →
    ∀ trail : Trail, trail.Unmarked →
      locations.idField? (here ++ trail.location) = config.idFieldAt trail
  | .rules rules, unmarked, here, locations, h, trail, clear => by
    rw [Config.locations] at h
    rw [Config.idFieldAt]
    exact idField?_rulesLocations rules unmarked here locations h trail clear
  | .misplaced _, _, _, _, h, _, _ => by cases h

theorem idField?_rulesLocations : (rules : List Rule) →
    (Config.rules rules).Every Rule.Unmarked → (here : Location) → (locations : Locations) →
    rulesLocations here rules = .ok locations → ∀ trail : Trail, trail.Unmarked →
      locations.idField? (here ++ trail.location) = rulesIdFieldAt rules trail
  | [], _, _, _, h, _, _ => by
    cases h
    rfl
  | rule :: rest, unmarked, here, locations, h, trail, clear => by
    obtain ⟨first, within, later⟩ := Config.every_cons.mp unmarked
    obtain ⟨own, others, made, more, rfl⟩ := rulesLocations_cons_ok h
    rw [Locations.idField?_append, rulesIdFieldAt,
      idField?_rulesLocations rest later here others more trail clear,
      idField?_rule_locations rule first within here own made trail clear]

theorem idField?_rule_locations : (rule : Rule) → rule.Unmarked →
    (Config.rules rule.nested).Every Rule.Unmarked → (here : Location) → (own : Locations) →
    rule.locations here = .ok own → ∀ trail : Trail, trail.Unmarked →
      own.idField? (here ++ trail.location) = rule.idFieldAt trail
  | .reconcile path config idField, unmarked, within, here, own, h, trail, clear => by
    rcases reconcile_locations_ok h with ⟨indexed, rfl⟩ | ⟨named, inner, made, rfl⟩
    · rw [Rule.idFieldAt, if_pos indexed]
      rfl
    · have below := prefix_of_mem_locations config _ inner made
      rw [Rule.idFieldAt, named, if_neg Bool.false_ne_true]
      by_cases reached : path.path.fieldNames <+: trail.location
      · obtain ⟨rest, rfl⟩ := Trail.starts_of_prefix unmarked clear reached
        rw [dropPrefix?_append, Trail.location_append, Trail.location_ofNames, ← List.append_assoc,
          idField?_inside below]
        match rest, clear with
        | [], _ => rfl
        | .element :: rest, clear =>
          have deeper := idField?_locations config within _ inner made rest
            fun mem => clear (by simp [mem])
          simpa [Trail.location, Trail.Step.name] using deeper
        | .field name :: rest, clear =>
          have other : name ≠ Location.element := by
            rintro rfl
            exact clear (by simp)
          simp [Trail.location, Trail.Step.name, other]
      · rw [idField?_outside below (mt (List.prefix_append_right_inj _).mp reached)]
        cases found : trail.dropPrefix? (Trail.ofNames path.path.fieldNames) with
        | none => rfl
        | some rest =>
          rw [eq_append_of_dropPrefix? found] at reached
          simp at reached
  | .single _, _, _, _, _, h, _, _ | .several _, _, _, _, _, h, _, _
  | .subtree _, _, _, _, _, h, _, _ | .merge _, _, _, _, _, h, _, _ => by
    cases h
    rfl

end

end Recast
