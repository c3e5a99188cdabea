import Recast.Proofs.LastWrite
import Recast.Proofs.Locations
import Recast.Proofs.Overlay
import Recast.Proofs.Pairing

/-!
Translating a document through a configuration that reconciles an array. The configuration's runs
leave the shaped elements at the array's path (`LastWrite`), laying them over the base keeps to that
path (`Overlay`), and there the two arrays are merged by identifiers (`Pairing`). What is left is
that the path's location has the rule's identifier field (`idField?_reconciled`), and that a run
which writes nothing at a path puts nothing in its way (`vacant_run`).
-/

namespace Recast

/-! ## The location of an array -/

theorem Path.elements_eq_fields {p : Path} (named : p.hasIndex = false) :
    p.elements = p.fieldNames.map Element.field := by
  obtain ⟨elements, raw⟩ := p
  simp only [hasIndex, fieldNames] at named ⊢
  induction elements with
  | nil => rfl
  | cons e rest ih =>
    cases e with
    | field name =>
      have named' : rest.any Element.isIndex = false := by simpa [Element.isIndex] using named
      simpa using ih named'
    | index n => simp [Element.isIndex] at named

theorem not_diverge_of_above {p q : List Element} (h : p <+: q) : ¬ Diverge p q := by
  rintro ⟨common, e, f, rest, others, rfl, rfl, hne, _⟩
  obtain ⟨more, h⟩ := h
  rw [List.append_assoc, List.append_cancel_left_eq, List.cons_append] at h
  exact hne (List.cons.inj h).1

theorem present_of_above {v : Value} {p q : List Element} (h : p <+: q)
    (present : v.resolve q ≠ .absent) : (v.resolve p).isAbsent = false := by
  obtain ⟨more, rfl⟩ := h
  rw [Value.resolve_append] at present
  cases found : v.resolve p with
  | absent => exact absurd (by rw [found, Value.resolve_absent]) present
  | _ => rfl

/-- The location of a reconciled array has the identifier field of its rule, when the array is there
and the other rules write elsewhere. -/
theorem idField?_reconciled {before after : List Rule} {path : Target} {nested : Config}
    {idField : String} {source : Value} {locations : Locations}
    (named : path.path.hasIndex = false)
    (apart : ∀ rule ∈ before ++ after, ∀ p ∈ rule.places source, Diverge p path.elements)
    (present : source.resolve path.elements ≠ .absent)
    (h : rulesLocations [] (before ++ .reconcile path nested idField :: after) = .ok locations) :
    locations.idField? path.path.fieldNames = some idField := by
  have mine : Rule.reconcile path nested idField ∈
      before ++ .reconcile path nested idField :: after := by simp
  apply Locations.idField?_of_unique
  · obtain ⟨own, made, sub⟩ := subset_rulesLocations h mine
    rcases reconcile_locations_ok made with ⟨indexed, _⟩ | ⟨_, inner, _, rfl⟩
    · rw [named] at indexed
      cases indexed
    · exact sub List.mem_cons_self
  · intro e he at_path
    obtain ⟨rule, hr, own, made, he⟩ := exists_of_mem_rulesLocations h he
    obtain ⟨other, config, otherField, rfl, named', entry⟩ := mem_rule_locations made he
    have hr : Rule.reconcile other config otherField = .reconcile path nested idField ∨
        Rule.reconcile other config otherField ∈ before ++ after := by
      simp only [List.mem_append, List.mem_cons] at hr ⊢
      tauto
    rcases hr with same | hr
    · cases same
      rcases entry with rfl | ⟨inner, made, he⟩
      · rfl
      · -- An entry below the elements is longer than the array's own location.
        have below := (prefix_of_mem_locations nested _ inner made e he).length_le
        simp only [at_path, List.nil_append, List.length_append, List.length_singleton] at below
        exact absurd below (by omega)
    · have below : other.path.fieldNames <+: e.1 := by
        rcases entry with rfl | ⟨inner, made, he⟩
        · exact List.prefix_rfl
        · exact (List.prefix_append _ _).trans (prefix_of_mem_locations config _ inner made e he)
      have above : other.elements <+: path.elements := by
        rw [Target.elements, Target.elements, Path.elements_eq_fields named,
          Path.elements_eq_fields named', ← at_path]
        exact below.map _
      have written := present_of_above above present
      have diverge := apart _ hr other.elements (by simp [Rule.places, written])
      exact absurd diverge (not_diverge_of_above above)

/-! ## Nothing written -/

open Translate (Vacant)

theorem vacant_absent (names : List String) : Vacant names .absent := by
  induction names with
  | nil => rfl
  | cons name rest ih => exact ⟨Or.inl rfl, ih⟩

theorem isFixed_of_open {v : Value} (h : v = .absent ∨ v.isObject = true) : v.isFixed = false := by
  rcases h with rfl | object
  · rfl
  · cases v <;> first | rfl | cases object

/-- A write elsewhere puts nothing but objects on the way of a path of names. -/
theorem vacant_update {v old new : Value} {p : List Element} {names : List String}
    (h : Value.update v p old = some new) (apart : Diverge p (names.map Element.field))
    (vacant : Vacant names old) : Vacant names new := by
  obtain ⟨common, e, f, rest, others, rfl, split, hne, hkind⟩ := apart
  induction common generalizing names old new with
  | nil =>
    cases names with
    | nil => cases split
    | cons name names =>
      cases split
      obtain ⟨admitted, x, _, rfl⟩ := Value.update_cons.mp h
      cases e with
      | index n => cases hkind
      | field other =>
        refine ⟨Or.inr (Value.suits_place (Value.suits_enter (.field other) old) x), ?_⟩
        rw [Value.select_place_of_ne admitted hne hkind,
          Value.select_enter (isFixed_of_open vacant.1) hkind]
        exact vacant.2
  | cons g common ih =>
    cases names with
    | nil => cases split
    | cons name names =>
      obtain ⟨rfl, more⟩ := List.cons.inj split
      obtain ⟨admitted, x, below, rfl⟩ := Value.update_cons.mp h
      refine ⟨Or.inr (Value.suits_place (Value.suits_enter (.field name) old) x), ?_⟩
      rw [Value.select_enter (isFixed_of_open vacant.1) rfl] at below
      rw [Value.select_place _ _ _ admitted]
      exact ih vacant.2 below more

/-- **What no rule writes.** A run that writes elsewhere leaves nothing but objects on the way of a
path of names, and nothing at its end. -/
theorem vacant_run {rules : List Rule} {source output : Value} {names : List String}
    (below : names ≠ []) (h : Transform.run (.rules rules) source = .ok output)
    (apart : ∀ rule ∈ rules, ∀ p ∈ rule.places source, Diverge p (names.map Element.field)) :
    Vacant names output := by
  obtain ⟨edits, all, applied⟩ := (runRules_ok_iff rfl).mp h
  have apart' := apart_of_places all apart
  refine Edit.applyAll_induct (fun e he reached next vacant made => ?_) ?_ applied
  · exact vacant_update (Value.write_ok_iff.mp made).2 (apart' e he) vacant
  · cases names with
    | nil => exact absurd rfl below
    | cons name rest => exact ⟨Or.inr rfl, vacant_absent rest⟩

/-! ## The shaped overrides -/

theorem isObject_of_run {rules : List Rule} {source output : Value}
    (h : Transform.run (.rules rules) source = .ok output) : output.isObject = true := by
  obtain ⟨edits, _, applied⟩ := (runRules_ok_iff rfl).mp h
  exact isObject_of_applyAll rfl applied

section
variable {before after : List Rule} {path : Target} {nested : Config} {idField : String}
  {source shaped : Value}

/-- Where the source has an array at a rule's path, the output has the elements that the rule makes
of it, when the later rules write elsewhere. -/
theorem exists_shaped {fixed : Bool} {items : List Value}
    (found : source.resolve path.elements = .array fixed items)
    (h : Transform.run (.rules (before ++ .reconcile path nested idField :: after)) source =
      .ok shaped)
    (later : ∀ rule ∈ after, ∀ p ∈ rule.places source, Diverge p path.elements) :
    ∃ elements, List.Forall₂ (Transform.Shapes (Transform.run nested) idField) items elements ∧
      shaped.resolve path.elements = .list elements := by
  obtain ⟨_, es, _, _, _, _, edited, _⟩ := run_split h
  simp only [Rule.edits, found] at edited
  obtain ⟨elements, shapes, _⟩ := bind_eq_ok.mp edited
  have made : (Rule.reconcile path nested idField).edits source = .ok [⟨path, .list elements⟩] := by
    simp only [Rule.edits, found, shapes, ok_bind, pure_eq]
  exact ⟨elements, shapeElements_ok shapes, resolve_run_of_edit h made later⟩

/-- Where the source has nothing at a rule's path, neither has the output, when the other rules
write elsewhere. -/
theorem vacant_shaped (nothing : source.resolve path.elements = .absent)
    (named : path.path.hasIndex = false)
    (h : Transform.run (.rules (before ++ .reconcile path nested idField :: after)) source =
      .ok shaped)
    (apart : ∀ rule ∈ before ++ after, ∀ p ∈ rule.places source, Diverge p path.elements) :
    Vacant path.path.fieldNames shaped := by
  have at_names : path.elements = path.path.fieldNames.map Element.field :=
    Path.elements_eq_fields named
  have below : path.path.fieldNames ≠ [] := by
    intro root
    rw [root] at at_names
    have not_root := path.not_root
    simp [Path.isRoot, show path.path.elements = [] from at_names] at not_root
  refine vacant_run below h fun rule hr p hp => ?_
  rw [← at_names]
  simp only [List.mem_append, List.mem_cons] at hr
  rcases hr with hr | rfl | hr
  · exact apart rule (List.mem_append_left after hr) p hp
  · simp [Rule.places, nothing, Value.isAbsent] at hp
  · exact apart rule (List.mem_append_right before hr) p hp

end

/-! ## The whole translation -/

/-- Laying what a run made over JSON succeeds, with the locations of the configuration. -/
theorem translate_total {config : Config} {base overrides shaped : Value} (sound : config.Sound)
    (json : base.isJson = true) (json' : shaped.isJson = true)
    (reshaped : transform config overrides = .ok shaped) :
    ∃ locations result, config.locations [] = .ok locations ∧
      Translate.merge locations [] base shaped = .ok result ∧
      translate base overrides (some config) = .ok result := by
  obtain ⟨locations, located⟩ := locations_total config (placed_of_sound config sound) []
  obtain ⟨result, made⟩ := Translate.merge_total locations base json [] shaped
    (Value.isPart_of_isJson json')
  refine ⟨locations, result, located, made, ?_⟩
  simp only [translate, reshaped, located, made, ok_bind, pure_eq]
  rfl

end Recast
