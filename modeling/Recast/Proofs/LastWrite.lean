import Recast.Proofs.Edits

/-!
Last write wins. In the output of a run, what a rule wrote to its destination is still there when
every later rule writes to places that part from it at accessors of the same kind; and where every
rule writes to such places only, there is nothing (`last_write_wins`).
-/

namespace Recast

namespace Rule

/-- Where a rule that copies one value looks for it, and where it writes it. -/
def ends? : Rule → Option (Target × Target)
  | .single copy => some (copy.source, copy.dest)
  | .subtree path => some (path, path)
  | .reconcile path _ _ => some (path, path)
  | .several _ => none
  | .merge _ => none

/-- What a rule that copies one value writes: the value that it found, after its mapper, or the list
of the elements that it found, each of them shaped. -/
inductive Writes (source : Value) : Rule → Value → Prop where
  | single {copy : FieldCopy} {w : Value}
      (mapped : copy.mapped (source.resolve copy.source.elements) = .ok w) :
      Writes source (.single copy) w
  | subtree {path : Target} : Writes source (.subtree path) (source.resolve path.elements)
  | reconcile {path : Target} {config : Config} {idField : String} {fixed : Bool}
      {items shaped : List Value} (found : source.resolve path.elements = .array fixed items)
      (elements : Transform.shapeElements (Transform.run config) idField path 0 items =
        .ok shaped) :
      Writes source (.reconcile path config idField) (.list shaped)

end Rule

/-- A rule that found the value to copy makes one edit: it writes the value to its destination. -/
theorem edits_of_present {rule : Rule} {source : Value} {start dest : Target} {es : List Edit}
    (ends : rule.ends? = some (start, dest))
    (present : (source.resolve start.elements).isAbsent = false)
    (h : rule.edits source = .ok es) : ∃ w, rule.Writes source w ∧ es = [⟨dest, w⟩] := by
  cases rule with
  | single copy =>
    cases ends
    rcases FieldCopy.edits_ok h with ⟨absent, _⟩ | ⟨_, w, mapped, rfl⟩
    · rw [present] at absent
      cases absent
    · exact ⟨w, .single mapped, rfl⟩
  | several paths => cases ends
  | subtree path =>
    cases ends
    cases h
    refine ⟨_, .subtree, ?_⟩
    simp only [Edit.copying, Target.elements] at present ⊢
    rw [present]
    rfl
  | merge path => cases ends
  | reconcile path config idField =>
    cases ends
    simp only [Rule.edits] at h
    split at h
    · rename_i found
      rw [found] at present
      cases present
    · rename_i items found
      obtain ⟨shaped, elements, h⟩ := bind_eq_ok.mp h
      cases h
      exact ⟨_, .reconcile found elements, rfl⟩
    · cases h

theorem apart_of_places {rules : List Rule} {source : Value} {edits : List (List Edit)}
    {q : List Element}
    (all : List.Forall₂ (fun rule es => rule.edits source = .ok es) rules edits)
    (apart : ∀ rule ∈ rules, ∀ p ∈ rule.places source, Diverge p q) :
    ∀ e ∈ edits.flatten, Diverge e.path.elements q := by
  intro e he
  obtain ⟨rule, hr, es, made, he⟩ := exists_rule_of_mem all he
  apply apart rule hr
  rw [← edits_places made]
  exact List.mem_map_of_mem he

theorem loose_empty (q : List Element) : Value.Loose q (.object []) :=
  Value.loose_of_isPliant rfl q

/-- **Frame for runs.** Rules that write elsewhere leave what a path finds. -/
theorem resolve_runRules {rules : List Rule} {index : Nat} {source output after : Value}
    {q : List Element} (object : output.isObject = true)
    (h : Transform.runRules rules index source output = .ok after)
    (apart : ∀ rule ∈ rules, ∀ p ∈ rule.places source, Diverge p q)
    (loose : Value.Loose q output) :
    after.resolve q = output.resolve q ∧ Value.Loose q after := by
  obtain ⟨edits, all, applied⟩ := (runRules_ok_iff object).mp h
  exact resolve_applyAll applied (apart_of_places all apart) loose

theorem runRules_append (rules more : List Rule) (index : Nat) (source output : Value) :
    Transform.runRules (rules ++ more) index source output =
      Transform.runRules rules index source output >>= fun next =>
        Transform.runRules more (index + rules.length) source next := by
  induction rules generalizing index output with
  | nil => rfl
  | cons rule rest ih =>
    simp only [List.cons_append, Transform.runRules, List.length_cons]
    cases Outcome.mapFault (Fault.under index) (Transform.applyRule rule source output) with
    | error e => rfl
    | ok next =>
      simp only [ok_bind, ih]
      rw [Nat.add_right_comm, Nat.add_assoc]

/-- The parts of a run around one of its rules. -/
theorem run_split {before after : List Rule} {rule : Rule} {source output : Value}
    (h : Transform.run (.rules (before ++ rule :: after)) source = .ok output) :
    ∃ reached es next index,
      Transform.runRules before 0 source (.object []) = .ok reached ∧
      reached.isObject = true ∧
      rule.edits source = .ok es ∧ Edit.applyAll reached es = .ok next ∧
      next.isObject = true ∧
      Transform.runRules after index source next = .ok output := by
  rw [Transform.run, runRules_append] at h
  obtain ⟨reached, first, h⟩ := bind_eq_ok.mp h
  have object : reached.isObject = true := isObject_of_runRules rfl first
  simp only [Transform.runRules, bind_eq_ok, Outcome.mapFault_eq_ok,
    applyRule_eq rule source object] at h
  obtain ⟨next, ⟨es, made, applied⟩, rest⟩ := h
  exact ⟨reached, es, next, _, first, object, made, applied, isObject_of_applyAll object applied,
    rest⟩

/-- What a rule's one edit writes is found in the output, when the later rules write elsewhere. -/
theorem resolve_run_of_edit {before after : List Rule} {rule : Rule} {source output : Value}
    {e : Edit} (h : Transform.run (.rules (before ++ rule :: after)) source = .ok output)
    (made : rule.edits source = .ok [e])
    (later : ∀ r ∈ after, ∀ p ∈ r.places source, Diverge p e.path.elements) :
    output.resolve e.path.elements = e.value := by
  obtain ⟨reached, es, next, index, _, _, made', applied, object, rest⟩ := run_split h
  rw [made] at made'
  cases made'
  simp only [Edit.applyAll_cons, Edit.applyAll_nil, bind_ok] at applied
  have updated := (Value.write_ok_iff.mp applied).2
  have written : next.resolve e.path.elements = e.value := by
    simpa [Value.resolve] using Value.resolve_update updated []
  rw [(resolve_runRules object rest later (Value.loose_update updated)).1, written]

theorem resolve_run_of_apart {rules : List Rule} {source output : Value} {q : List Element}
    (h : Transform.run (.rules rules) source = .ok output)
    (apart : ∀ rule ∈ rules, ∀ p ∈ rule.places source, Diverge p q) :
    output.resolve q = (Value.object []).resolve q :=
  (resolve_runRules rfl h apart (loose_empty q)).1

theorem resolve_empty {q : List Element} (h : q ≠ []) : (Value.object []).resolve q = .absent := by
  cases q with
  | nil => exact absurd rfl h
  | cons e rest => cases e <;> simp [Value.resolve, Value.select, Fields.get]

/-- **Last write wins, and nothing else changes it.** In the output of a configuration, the
destination of a rule that found its value holds what the rule wrote, when all later rules write to
places that part from the destination at accessors of the same kind; and below the root there is
nothing at a path from which all places written to part so. -/
theorem last_write_wins (rules : List Rule) (source output : Value)
    (ran : transform (.rules rules) source = .ok output) :
    (∀ before rule after start dest, rules = before ++ rule :: after →
      rule.ends? = some (start, dest) → (source.resolve start.elements).isAbsent = false →
      (∀ later ∈ after, ∀ p ∈ later.places source, Diverge p dest.elements) →
      rule.Writes source (output.resolve dest.elements)) ∧
    (∀ q, q ≠ [] → (∀ rule ∈ rules, ∀ p ∈ rule.places source, Diverge p q) →
      output.resolve q = .absent) := by
  constructor
  · rintro before rule after start dest rfl ends present later
    obtain ⟨_, es, _, _, _, _, made, _⟩ := run_split ran
    obtain ⟨w, writes, rfl⟩ := edits_of_present ends present made
    have found : output.resolve dest.elements = w := resolve_run_of_edit ran made later
    rw [found]
    exact writes
  · intro q below apart
    rw [resolve_run_of_apart ran apart, resolve_empty below]

/-- A field written beside an earlier one, inside the same object, leaves it as it was written. -/
theorem last_write_wins_sibling :
    let source : Value := .object [("a", .int 1), ("x", .object [("z", .null)])]
    let early : Rule := .single
      { source := ⟨⟨[.field "a"], "a"⟩, rfl⟩, dest := ⟨⟨[.field "x", .field "y"], "x.y"⟩, rfl⟩ }
    let late : Rule := .subtree ⟨⟨[.field "x", .field "z"], "x.z"⟩, rfl⟩
    let output : Value := .object [("x", .object [("y", .int 1), ("z", .null)])]
    transform (.rules [early, late]) source = .ok output ∧
    early.Writes source (output.resolve [.field "x", .field "y"]) := by
  intro source early late output
  have ran : transform (.rules [early, late]) source = .ok output := by rfl
  refine ⟨ran, (last_write_wins _ _ _ ran).1 [] early [late] ⟨⟨[.field "a"], "a"⟩, rfl⟩
    ⟨⟨[.field "x", .field "y"], "x.y"⟩, rfl⟩ rfl rfl rfl ?_⟩
  intro later hl p hp
  obtain rfl := List.mem_singleton.mp hl
  obtain rfl : p = [.field "x", .field "z"] := List.mem_singleton.mp hp
  exact ⟨[.field "x"], .field "z", .field "y", [], [], rfl, rfl, by decide, rfl⟩

end Recast
