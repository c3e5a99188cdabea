import Recast.Proofs.FailFast
import Recast.Proofs.Rendering

/-!
What a validation fault points at. Its path starts out as the path of the field that was copied, and
on the way out each array puts its own path and the position of the element in front.

* `spells_within`: texts in path notation stay in path notation when one is placed in the other;
* `blame_of_run`: the fault of a run, in the run's own source;
* `transform_blames`: the path of a validation fault leads to the value that was refused.
-/

namespace Recast

open Recast.Path (Spells IsShort)
open Text

/-! ## Paths that were read from texts -/

/-- A path is the one that its text spells. -/
def Path.Spelled (p : Path) : Prop := Path.read p.raw = .ok p

def Rule.Spelled (rule : Rule) : Prop := ∀ p ∈ rule.paths, p.Spelled

/-- The functions of a rule raise no faults of their own. -/
def Rule.Faultless (rule : Rule) : Prop := ∀ f, ¬ rule.Raises (.fault f)

/-- Runs of digits that are short enough to be read if the numeral of their number is. Positions of
elements are written as numerals, and these are short in any array but an enormous one. -/
def Path.IsThrifty (digits : List Char) : Prop :=
  Numeral.isWritable (Numeral.value digits) = true → IsShort digits

/-- The indexes of a path that was read are short. -/
theorem Path.Spelled.isShort {p : Path} (h : p.Spelled) :
    p.elements.all Element.isShort = true := by
  have spelled : Spells IsShort p.raw.toList p.elements := (Path.read_eq_ok_iff.mp h).2
  rw [List.all_eq_true]
  intro e mem
  have expressible := expressible_of_spells spelled e mem
  cases e with
  | field name => rfl
  | index n => exact expressible

theorem Path.Spelled.spells {t : Target} (h : t.path.Spelled) :
    t.text.toList ≠ [] ∧ Spells Path.IsThrifty t.text.toList t.elements := by
  obtain ⟨⟨elements, raw⟩, notRoot⟩ := t
  have spelled : Spells IsShort raw.toList elements := (Path.read_eq_ok_iff.mp h).2
  have filled : raw.toList ≠ [] := by
    intro blank
    rw [blank, ← Path.readElements_eq_ok_iff] at spelled
    cases spelled
    cases notRoot
  have shown : Target.text ⟨⟨elements, raw⟩, notRoot⟩ = raw := by
    simpa [Target.text, Path.text] using fun blank => absurd (by simp [blank]) filled
  rw [shown]
  exact ⟨filled, spelled.imp fun _ _ short _ => short⟩

/-! ## Positions -/

theorem isThrifty_write (n : Nat) : Path.IsThrifty (Numeral.write n) := by
  intro writable
  rw [Numeral.value_write] at writable
  simpa [Numeral.isWritable, IsShort] using writable

/-- An element's location spells the path of its array and its position. -/
theorem spells_location {t : Target} (h : t.path.Spelled) (n : Nat) :
    (t.text ++ (Element.index n).text).toList ≠ [] ∧
      Spells Path.IsThrifty (t.text ++ (Element.index n).text).toList
        (t.elements ++ [.index n]) := by
  obtain ⟨filled, spelled⟩ := h.spells
  rw [String.toList_append]
  refine ⟨by simp [filled], ?_⟩
  have position := spells_index n (isThrifty_write n)
  rw [toList_index] at position ⊢
  exact spelled.glue position filled

/-! ## Faults inside elements -/

/-- A fault that is placed at a location spells the location's elements and then its own: an index
is put right behind the location, and a name behind a point. -/
theorem spells_within {fits : List Char → Prop} {location inner : String} {es fs : List Element}
    {f : Fault} (path : f.path = some inner) (outside : Spells fits location.toList es)
    (inside : Spells fits inner.toList fs) (filled : location.toList ≠ [])
    (filled' : inner.toList ≠ []) :
    ∃ joined, (f.within location).path = some joined ∧ joined.toList ≠ [] ∧
      Spells fits joined.toList (es ++ fs) := by
  simp only [Fault.within, path]
  split
  · rename_i blank
    exact absurd blank filled'
  · rename_i rest start
    rw [start] at inside
    refine ⟨_, rfl, by simp [filled], ?_⟩
    rw [String.toList_append, start]
    exact outside.glue inside filled
  · refine ⟨_, rfl, by simp [filled], ?_⟩
    simpa using outside.point inside filled filled'

/-! ## The value that was refused -/

/-- Running rules on a source, one comes by a chain to a rule that copies a field, and the value for
its validators. Where the chain enters an array, the elements before the one in question succeed. -/
inductive Hands : List Rule → Value → List Nat → FieldCopy → Value → Prop where
  | here {rules : List Rule} {source output : Value} {i : Nat} {copy : FieldCopy}
      (selected : rules[i]? = some (.single copy))
      (ran : Transform.run (.rules (rules.take i)) source = .ok output) :
      Hands rules source [i] copy (source.resolve copy.source.elements)
  | inside {rules : List Rule} {source output : Value} {i n : Nat} {path : Target}
      {config : Config} {idField : String} {fixed : Bool} {items : List Value} {fields : Fields}
      {chain : List Nat} {copy : FieldCopy} {value : Value}
      (selected : rules[i]? = some (.reconcile path config idField))
      (ran : Transform.run (.rules (rules.take i)) source = .ok output)
      (found : source.resolve path.elements = .array fixed items)
      (element : items[n]? = some (.object fields))
      (earlier : ∀ item ∈ items.take n, ∃ output, Transform.run config item = .ok output)
      (below : Hands config.toList (.object fields) chain copy value) :
      Hands rules source (i :: chain) copy value

theorem Hands.leads {rules : List Rule} {source value : Value} {chain : List Nat}
    {copy : FieldCopy} (h : Hands rules source chain copy value) :
    Leads rules chain (.single copy) := by
  induction h with
  | here selected _ => exact .here selected
  | inside selected _ _ _ _ _ ih => exact .inside selected ih

/-- A path that goes on from the element at a position. -/
theorem resolve_element {source : Value} {path elements : List Element} {fixed : Bool}
    {items : List Value} {n : Nat} {element : Value}
    (found : source.resolve path = .array fixed items) (selected : items[n]? = some element) :
    source.resolve (path ++ [.index n] ++ elements) = element.resolve elements := by
  simp [Value.resolve_append, found, Value.resolve, Value.select, Value.item_eq_getElem?, selected]

/-- The validation fault of a run names a path to the value that the rule at the end of its chain
handed to its validators. -/
theorem blame_of_run {config : Config} (spelled : config.Every Rule.Spelled)
    (own : config.Every Rule.Faultless) {source : Value} {f : Fault}
    (failed : Transform.run config source = .error (.fault f)) (kind : f.kind = .validation) :
    ∃ chain copy text elements v, f.rulePath = chain.map Int.ofNat ∧
      Hands config.toList source chain copy (source.resolve elements) ∧
      f.path = some text ∧ text.toList ≠ [] ∧ Spells Path.IsThrifty text.toList elements ∧
      copy.RefusedBy (source.resolve elements) v ∧ f.validator = some v.name := by
  induction config using Config.nested_induction generalizing source f with
  | step config ih =>
  obtain ⟨i, rule, inner, selected, ⟨output, ran⟩, stops, rfl⟩ := run_eq_fault failed
  have mem : rule ∈ config.toList := List.mem_of_getElem? selected
  generalize failure : Failure.fault inner = e at stops
  cases stops with
  | @refused copy v _ refused =>
    cases failure
    obtain ⟨filled, spells⟩ := (spelled.of_mem mem copy.source.path (by simp [Rule.paths])).spells
    exact ⟨[i], copy, _, copy.source.elements, v, rfl, .here selected ran, rfl, filled, spells,
      refused, rfl⟩
  | raised raises =>
    subst failure
    exact absurd raises (own.of_mem mem inner)
  | root | unshown => cases failure
  | refusal other =>
    cases failure
    exact absurd kind other
  | @element path config _ _ _ n _ _ found element earlier stopped =>
    -- The fault inside the element is placed at the element.
    obtain ⟨deep, rfl, rfl⟩ := Failure.mapFault_eq_fault.mp failure.symm
    obtain
      ⟨chain, copy, text, elements, v, chained, hands, placed, filled, spells, refused, named⟩ :=
      ih _ _ _ mem (spelled.inside mem) (own.inside mem) stopped kind
    obtain ⟨outer, location⟩ :=
      spells_location (spelled.of_mem mem path.path (by simp [Rule.paths])) n
    obtain ⟨joined, path, long, whole⟩ := spells_within placed location spells outer filled
    refine ⟨i :: chain, copy, joined, _, v, by simp [chained], ?_, path, long, whole, ?_, named⟩
    · rw [resolve_element found element]
      exact .inside selected ran found element earlier hands
    · rw [resolve_element found element]
      exact refused

/-- **A validation fault points at the value that was refused.** Take a configuration whose paths
were read from texts and whose functions raise no faults of their own. When it fails with a
validation fault, the fault's chain leads to a rule that copies a field; the fault's path is in path
notation, and what it leads to in the source is the value that the rule handed to its validators;
the fault names the first validator of the rule that does not accept this value. -/
theorem transform_blames (config : Config) (source : Value) {f : Fault}
    (spelled : config.Every Rule.Spelled) (own : config.Every Rule.Faultless)
    (failed : transform config source = .error (.fault f)) (kind : f.kind = .validation) :
    ∃ chain copy text elements v,
      f.rulePath = chain.map Int.ofNat ∧ Leads config.toList chain (.single copy) ∧
      Hands config.toList source chain copy (source.resolve elements) ∧
      f.path = some text ∧ Spells (fun _ => True) text.toList elements ∧
      ((∀ n, .index n ∈ elements → Numeral.isWritable n = true) →
        Path.read text = .ok ⟨elements, text⟩) ∧
      copy.RefusedBy (source.resolve elements) v ∧ f.validator = some v.name := by
  have ran : Transform.run config source = .error (.fault f) := by
    cases config with
    | rules rules => exact failed
    | misplaced v => cases failed
  obtain ⟨chain, copy, text, elements, v, chained, hands, path, _, spells, refused, named⟩ :=
    blame_of_run spelled own ran kind
  refine ⟨chain, copy, text, elements, v, chained, hands.leads, hands, path,
    spells.imp fun _ _ _ => trivial, fun writable => ?_, refused, named⟩
  exact Path.read_eq_ok_iff.mpr
    ⟨rfl, spells.imp fun _ mem thrifty => thrifty (writable _ mem)⟩

/-- The second row has a cell without a name; the fault points into the cell. -/
theorem transform_blames_cell :
    let name : FieldCopy :=
      { source := ⟨⟨[.field "name"], "name"⟩, rfl⟩, dest := ⟨⟨[.field "name"], "name"⟩, rfl⟩
        validators := [Validator.ofTest "string" (Validator.hasKind .string), Validator.required] }
    let cells : Rule := .reconcile ⟨⟨[.field "cells"], "cells"⟩, rfl⟩ (.rules [.single name]) "id"
    let rows : Rule := .reconcile ⟨⟨[.field "rows"], "rows"⟩, rfl⟩ (.rules [cells]) "id"
    let config : Config := .rules [.merge ⟨[.field "v"], "v"⟩, rows]
    let cell : Value := .object [("name", .int 7)]
    let source : Value :=
      .object [("rows", .list [.object [], .object [("cells", .list [cell])]])]
    let f : Fault :=
      { cause := .validatorRejected "string" "name", path := some "rows[1].cells[0].name"
        validator := some "string", ruleIndex := some 1, rulePath := [1, 0, 0] }
    config.Every Rule.Spelled ∧ config.Every Rule.Faultless ∧
    transform config source = .error (.fault f) ∧ f.kind = .validation ∧
    ∃ copy elements v, Hands config.toList source [1, 0, 0] copy (source.resolve elements) ∧
      Spells (fun _ => True) "rows[1].cells[0].name".toList elements ∧
      copy.RefusedBy (source.resolve elements) v ∧ v.name = "string" := by
  intro name cells rows config cell source f
  have spelled : config.Every Rule.Spelled := by
    have read : ∀ text, text ∈ ["name", "cells", "rows", "v"] →
        Path.read text = .ok ⟨[.field text], text⟩ := by decide
    simp [Config.every_cons, Config.every_nil, Rule.nested, Config.toList, config, rows, cells,
      name, Rule.Spelled, Rule.paths, Path.Spelled, read]
  have own : config.Every Rule.Faultless := by
    simp [Config.every_cons, Config.every_nil, Rule.nested, Config.toList, config, rows, cells,
      name, Rule.Faultless, Rule.Raises, FieldCopy.Raises, Validator.required, Validator.ofTest]
  have failed : transform config source = .error (.fault f) := by decide +kernel
  obtain ⟨chain, copy, text, elements, v, chained, _, hands, path, spells, _, refused, named⟩ :=
    transform_blames config source spelled own failed rfl
  obtain rfl : [1, 0, 0] = chain :=
    List.map_injective_iff.mpr (fun _ _ => Int.ofNat.inj) chained
  cases path
  exact ⟨spelled, own, failed, rfl, copy, elements, v, hands, spells, refused,
    (Option.some.inj named).symm⟩

end Recast
