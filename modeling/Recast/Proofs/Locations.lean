import Recast.Proofs.Preservation
import Recast.Translate

/-!
The locations that a configuration reconciles. Where nested configurations are in their places they
can always be collected (`locations_total`); each is the location of a rule's own array or lies
below the elements of one (`mem_rule_locations`), and all lie below the source
(`prefix_of_mem_locations`).
-/

namespace Recast

/-- An entry that all entries of its location agree with counts. -/
theorem Locations.idField?_of_unique {locations : Locations} {here : Location} {idField : String}
    (mem : (here, idField) ∈ locations) (unique : ∀ e ∈ locations, e.1 = here → e.2 = idField) :
    locations.idField? here = some idField := by
  cases found : locations.idField? here with
  | none =>
    have absent := List.lookup_eq_none_iff.mp found _ (List.mem_reverse.mpr mem)
    simp at absent
  | some other =>
    obtain ⟨l, r, split, _⟩ := List.lookup_eq_some_iff.mp found
    have mem' : (here, other) ∈ locations := by
      rw [← List.mem_reverse, split]
      simp
    rw [← unique _ mem' rfl]

theorem rulesLocations_cons_ok {here : Location} {rule : Rule} {rest : List Rule}
    {locations : Locations} (h : rulesLocations here (rule :: rest) = .ok locations) :
    ∃ own others, rule.locations here = .ok own ∧ rulesLocations here rest = .ok others ∧
      locations = own ++ others := by
  rw [rulesLocations] at h
  obtain ⟨own, made, h⟩ := bind_eq_ok.mp h
  obtain ⟨others, more, h⟩ := bind_eq_ok.mp h
  cases h
  exact ⟨own, others, made, more, rfl⟩

/-- The entries of a rule that reconciles an array: none if an index leads there, and otherwise the
array's own, then those below its elements. -/
theorem reconcile_locations_ok {here : Location} {path : Target} {config : Config}
    {idField : String} {own : Locations}
    (h : (Rule.reconcile path config idField).locations here = .ok own) :
    path.path.hasIndex = true ∧ own = [] ∨
      path.path.hasIndex = false ∧ ∃ inner,
        config.locations (here ++ path.path.fieldNames ++ [Location.element]) = .ok inner ∧
          own = (here ++ path.path.fieldNames, idField) :: inner := by
  rw [Rule.locations] at h
  split at h
  · rename_i indexed
    cases h
    exact Or.inl ⟨indexed, rfl⟩
  · rename_i named
    obtain ⟨inner, made, h⟩ := bind_eq_ok.mp h
    cases h
    exact Or.inr ⟨by simpa using named, inner, made, rfl⟩

theorem exists_of_mem_rulesLocations {here : Location} {rules : List Rule} {locations : Locations}
    (h : rulesLocations here rules = .ok locations) {e : Location × String} (he : e ∈ locations) :
    ∃ rule ∈ rules, ∃ own, rule.locations here = .ok own ∧ e ∈ own := by
  induction rules generalizing locations with
  | nil =>
    cases h
    cases he
  | cons rule rest ih =>
    obtain ⟨own, others, made, more, rfl⟩ := rulesLocations_cons_ok h
    rcases List.mem_append.mp he with he | he
    · exact ⟨rule, List.mem_cons_self, own, made, he⟩
    · obtain ⟨rule', hr, found⟩ := ih more he
      exact ⟨rule', List.mem_cons_of_mem _ hr, found⟩

theorem subset_rulesLocations {here : Location} {rules : List Rule} {locations : Locations}
    (h : rulesLocations here rules = .ok locations) {rule : Rule} (hr : rule ∈ rules) :
    ∃ own, rule.locations here = .ok own ∧ own ⊆ locations := by
  induction rules generalizing locations with
  | nil => cases hr
  | cons first rest ih =>
    obtain ⟨own, others, made, more, rfl⟩ := rulesLocations_cons_ok h
    rcases List.mem_cons.mp hr with rfl | hr
    · exact ⟨own, made, List.subset_append_left _ _⟩
    · obtain ⟨own', made', sub⟩ := ih more hr
      exact ⟨own', made', List.subset_append_of_subset_right _ sub⟩

theorem mem_rule_locations {here : Location} {rule : Rule} {own : Locations}
    (h : rule.locations here = .ok own) {e : Location × String} (he : e ∈ own) :
    ∃ path config idField, rule = .reconcile path config idField ∧ path.path.hasIndex = false ∧
      (e = (here ++ path.path.fieldNames, idField) ∨
        ∃ inner, config.locations (here ++ path.path.fieldNames ++ [Location.element]) = .ok inner ∧
          e ∈ inner) := by
  cases rule with
  | reconcile path config idField =>
    rcases reconcile_locations_ok h with ⟨_, rfl⟩ | ⟨named, inner, made, rfl⟩
    · cases he
    · refine ⟨path, config, idField, rfl, named, ?_⟩
      rcases List.mem_cons.mp he with rfl | he
      · exact Or.inl rfl
      · exact Or.inr ⟨inner, made, he⟩
  | _ =>
    cases h
    cases he

theorem placed_of_sound (config : Config) (sound : config.Sound) : config.Placed := by
  refine ⟨?_, fun chain rule leads => (every_of_sound config sound chain rule leads).1⟩
  cases config with
  | rules rules => rfl
  | misplaced v => exact sound.elim

mutual

theorem locations_total : (config : Config) → config.Placed → (here : Location) →
    ∃ locations, config.locations here = .ok locations
  | .rules rules, placed, here => by
    rw [Config.locations]
    exact rulesLocations_total rules placed.inside here
  | .misplaced _, placed, _ => nomatch placed.here

theorem rulesLocations_total : (rules : List Rule) → (Config.rules rules).Every Rule.Placed →
    (here : Location) → ∃ locations, rulesLocations here rules = .ok locations
  | [], _, _ => ⟨[], rfl⟩
  | rule :: rest, placed, here => by
    obtain ⟨first, within, later⟩ := Config.every_cons.mp placed
    obtain ⟨own, made⟩ := rule_locations_total rule first within here
    obtain ⟨others, more⟩ := rulesLocations_total rest later here
    exact ⟨own ++ others, by simp [rulesLocations, made, more]⟩

theorem rule_locations_total : (rule : Rule) → rule.Placed →
    (Config.rules rule.nested).Every Rule.Placed → (here : Location) →
    ∃ own, rule.locations here = .ok own
  | .reconcile path config idField, placed, within, here => by
    obtain ⟨inner, made⟩ := locations_total config ⟨placed, within⟩
      (here ++ path.path.fieldNames ++ [Location.element])
    rw [Rule.locations]
    split
    · exact ⟨[], rfl⟩
    · exact ⟨(here ++ path.path.fieldNames, idField) :: inner, by simp only [made, ok_bind, pure_eq]⟩
  | .single _, _, _, _ | .several _, _, _, _ | .subtree _, _, _, _ | .merge _, _, _, _ => ⟨[], rfl⟩

end

mutual

/-- The entries of a configuration lie below its source. -/
theorem prefix_of_mem_locations : (config : Config) → (here : Location) → (locations : Locations) →
    config.locations here = .ok locations → ∀ e ∈ locations, here <+: e.1
  | .rules rules, here, locations, h => by
    rw [Config.locations] at h
    exact prefix_of_mem_rulesLocations rules here locations h
  | .misplaced _, _, _, h => by cases h

theorem prefix_of_mem_rulesLocations : (rules : List Rule) → (here : Location) →
    (locations : Locations) → rulesLocations here rules = .ok locations →
    ∀ e ∈ locations, here <+: e.1
  | [], _, _, h => by
    cases h
    simp
  | rule :: rest, here, locations, h => by
    obtain ⟨own, others, made, more, rfl⟩ := rulesLocations_cons_ok h
    intro e he
    rcases List.mem_append.mp he with he | he
    · exact prefix_of_mem_rule_locations rule here own made e he
    · exact prefix_of_mem_rulesLocations rest here others more e he

theorem prefix_of_mem_rule_locations : (rule : Rule) → (here : Location) → (own : Locations) →
    rule.locations here = .ok own → ∀ e ∈ own, here <+: e.1
  | .reconcile path config idField, here, own, h => by
    intro e he
    rcases reconcile_locations_ok h with ⟨_, rfl⟩ | ⟨_, inner, made, rfl⟩
    · cases he
    · rcases List.mem_cons.mp he with rfl | he
      · exact List.prefix_append _ _
      · have below := prefix_of_mem_locations config _ inner made e he
        rw [List.append_assoc] at below
        exact (List.prefix_append _ _).trans below
  | .single _, _, _, h | .several _, _, _, h | .subtree _, _, _, h | .merge _, _, _, h => by
    cases h
    simp

end

end Recast
