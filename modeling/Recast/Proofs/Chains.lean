import Recast.Rule.Basic

/-!
Chains of rule indexes. A chain leads from the rules of a configuration to one of them, or to a rule
of a configuration inside it, at any depth (`Leads`). What holds of every rule that some chain leads
to holds throughout the configuration (`Config.Every`). Main statement: what holds of a
configuration as soon as it holds of those inside it holds of all (`Config.nested_induction`).
-/

namespace Recast

/-- The rules of the configuration inside a rule; only a rule that reconciles an array has some. -/
def Rule.nested : Rule → List Rule
  | .reconcile _ config _ => config.toList
  | .single _ | .several _ | .subtree _ | .merge _ => []

/-- A chain of indexes leads to a rule: each index but the last selects a rule that reconciles an
array, and the chain goes on in the configuration for its elements. -/
inductive Leads : List Rule → List Nat → Rule → Prop where
  | here {rules : List Rule} {i : Nat} {rule : Rule} (selected : rules[i]? = some rule) :
      Leads rules [i] rule
  | inside {rules : List Rule} {i : Nat} {path : Target} {config : Config} {idField : String}
      {chain : List Nat} {rule : Rule}
      (selected : rules[i]? = some (.reconcile path config idField))
      (below : Leads config.toList chain rule) : Leads rules (i :: chain) rule

theorem not_leads_nil {chain : List Nat} {rule : Rule} : ¬ Leads [] chain rule := by
  intro h
  cases h with
  | here selected => simp at selected
  | inside selected _ => simp at selected

/-! ## Induction over nested configurations -/

section
variable {motive : Config → Prop}

mutual

/-- **Induction over nested configurations.** -/
theorem Config.nested_induction (step : ∀ config : Config, (∀ path inner idField,
    Rule.reconcile path inner idField ∈ config.toList → motive inner) → motive config) :
    (config : Config) → motive config
  | .rules rules => step _ fun _ _ _ mem => nested_induction_of_mem step rules mem
  | .misplaced _ => step _ (by simp [Config.toList])

theorem nested_induction_of_mem (step : ∀ config : Config, (∀ path inner idField,
    Rule.reconcile path inner idField ∈ config.toList → motive inner) → motive config) :
    (rules : List Rule) → ∀ {path inner idField}, Rule.reconcile path inner idField ∈ rules →
      motive inner
  | [], _, _, _, mem => absurd mem List.not_mem_nil
  | rule :: rest, _, _, _, mem => (List.mem_cons.mp mem).elim
    (fun same => nested_induction_of_eq step rule same.symm)
    (fun mem => nested_induction_of_mem step rest mem)

theorem nested_induction_of_eq (step : ∀ config : Config, (∀ path inner idField,
    Rule.reconcile path inner idField ∈ config.toList → motive inner) → motive config) :
    (rule : Rule) → ∀ {path inner idField}, rule = .reconcile path inner idField → motive inner
  | .reconcile _ config _, _, _, _, same =>
    (Rule.reconcile.inj same).2.1 ▸ config.nested_induction step
  | .single _, _, _, _, same | .several _, _, _, _, same | .subtree _, _, _, _, same
  | .merge _, _, _, _, same => nomatch same

end

end

/-! ## Throughout a configuration -/

/-- A condition holds of every rule of a configuration, at any depth. -/
def Config.Every (test : Rule → Prop) (config : Config) : Prop :=
  ∀ chain rule, Leads config.toList chain rule → test rule

namespace Config

variable {test : Rule → Prop} {config : Config} {rule : Rule}

theorem Every.of_mem (h : config.Every test) (mem : rule ∈ config.toList) : test rule := by
  obtain ⟨i, selected⟩ := List.mem_iff_getElem?.mp mem
  exact h [i] rule (.here selected)

theorem Every.inside (h : config.Every test) {path : Target} {inner : Config} {idField : String}
    (mem : .reconcile path inner idField ∈ config.toList) : inner.Every test := by
  intro chain rule below
  obtain ⟨i, selected⟩ := List.mem_iff_getElem?.mp mem
  exact h (i :: chain) rule (.inside selected below)

theorem every_nil : (rules []).Every test := fun _ _ h => absurd h not_leads_nil

/-- A condition holds throughout a configuration when it holds of the first rule, inside it, and
throughout the rest. -/
theorem every_cons {rest : List Rule} : (rules (rule :: rest)).Every test ↔
    test rule ∧ (rules rule.nested).Every test ∧ (rules rest).Every test := by
  constructor
  · intro h
    refine ⟨h.of_mem List.mem_cons_self, fun chain inner below => ?_, fun chain inner leads => ?_⟩
    · cases rule with
      | reconcile path config idField => exact h (0 :: chain) inner (.inside rfl below)
      | _ => exact absurd below not_leads_nil
    · cases leads with
      | @here _ i _ selected => exact h [i + 1] inner (.here selected)
      | @inside _ i _ _ _ chain _ selected below =>
        exact h ((i + 1) :: chain) inner (.inside selected below)
  · rintro ⟨first, within, later⟩ chain inner leads
    cases leads with
    | @here _ i _ selected =>
      cases i with
      | zero => exact Option.some.inj selected ▸ first
      | succ i => exact later [i] inner (.here selected)
    | @inside _ i _ _ _ chain _ selected below =>
      cases i with
      | zero =>
        rw [Option.some.inj selected] at within
        exact within chain inner below
      | succ i => exact later (i :: chain) inner (.inside selected below)

end Config

/-! ## Configurations in their places -/

/-- The configuration inside a rule is one, and not some other value. -/
def Rule.Placed : Rule → Prop
  | .reconcile _ config _ => config = .rules config.toList
  | .single _ | .several _ | .subtree _ | .merge _ => True

/-- A configuration is in its place, and so are those inside it. -/
structure Config.Placed (config : Config) : Prop where
  here : config = .rules config.toList
  inside : config.Every Rule.Placed

end Recast
