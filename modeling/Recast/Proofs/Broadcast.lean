import Recast.Proofs.Throughout

/-!
Broadcast lookups. A field accessor that meets an array applies to each of its items, at any depth
of arrays, and the array of what is found takes the array's place. So a broadcast is a plain lookup
that tries all positions in front of each field.

* `broadcast_append`: a broadcast along two paths is two broadcasts, if the second starts with a
  field;
* `spread_present_iff`: what one field accessor finds in nested arrays, by positions;
* `broadcast_finds`: a broadcast finds something exactly when a plain lookup does, along the path
  with indexes put in front of its fields, or comes to an empty array there.
-/

namespace Recast.Value

/-! ## What is collected -/

theorem isAbsent_iff {v : Value} : v.isAbsent = true ↔ v = .absent := by
  cases v <;> simp [isAbsent]

theorem spreadItems_eq_map (find : Fields → Value) (items : List Value) :
    spreadItems find items = items.map (spread find) := by
  induction items with
  | nil => rfl
  | cons v rest ih => rw [spreadItems, ih, List.map_cons]

@[simp] theorem spread_absent (find : Fields → Value) : spread find .absent = .absent := by
  simp [spread]

theorem absent_or_present (found : List Value) :
    (∀ v ∈ found, v = .absent) ∨ ∃ v ∈ found, v ≠ .absent := by
  by_cases present : ∃ v ∈ found, v ≠ .absent
  · exact Or.inr present
  · refine Or.inl fun v mem => Classical.byContradiction fun here => ?_
    exact present ⟨v, mem, here⟩

theorem mem_present {found : List Value} {v : Value} (mem : v ∈ found) (present : v ≠ .absent) :
    v ∈ found.filter fun w => !w.isAbsent := by
  refine List.mem_filter.mpr ⟨mem, ?_⟩
  cases v <;> first | rfl | exact absurd rfl present

theorem collect_of_present {items found : List Value} {v : Value} (mem : v ∈ found)
    (present : v ≠ .absent) : collect items found = .list (found.filter fun w => !w.isAbsent) := by
  have filled : (found.filter fun w => !w.isAbsent).isEmpty = false :=
    List.isEmpty_eq_false_iff.mpr (List.ne_nil_of_mem (mem_present mem present))
  simp [collect, filled]

theorem collect_of_absent {items found : List Value} (absent : ∀ v ∈ found, v = .absent) :
    collect items found = if items = [] then .list [] else .absent := by
  have none : (found.filter fun w => !w.isAbsent) = [] := by
    refine List.filter_eq_nil_iff.mpr fun v mem => ?_
    simp [absent v mem, isAbsent]
  simp [collect, none]

/-- Nothing is collected exactly when there are items and nothing is found in any of them. -/
theorem collect_present_iff {items found : List Value} :
    collect items found ≠ .absent ↔ items = [] ∨ ∃ v ∈ found, v ≠ .absent := by
  rcases absent_or_present found with absent | ⟨v, mem, present⟩
  · have none : ¬ ∃ v ∈ found, v ≠ .absent := by
      rintro ⟨v, mem, present⟩
      exact present (absent v mem)
    rw [collect_of_absent absent, or_iff_left none]
    by_cases empty : items = [] <;> simp [empty, list]
  · rw [collect_of_present mem present]
    simp only [list, ne_eq, reduceCtorEq, not_false_eq_true, true_iff]
    exact Or.inr ⟨v, mem, present⟩

/-! ## Two broadcasts in sequence -/

theorem filter_map_spread (find : Fields → Value) (found : List Value) :
    (found.map (spread find)).filter (fun w => !w.isAbsent) =
      ((found.filter fun w => !w.isAbsent).map (spread find)).filter fun w => !w.isAbsent := by
  induction found with
  | nil => rfl
  | cons v rest ih =>
    cases absent : v.isAbsent with
    | true =>
      obtain rfl := isAbsent_iff.mp absent
      simpa [isAbsent] using ih
    | false => simp [absent, List.filter_cons, ih]

/-- What is found in the collected array is collected from what is found in each item: an item with
nothing in it is dropped in the one step or in the other. -/
theorem spread_collect (find : Fields → Value) {items found : List Value}
    (all : items = [] → found = []) :
    spread find (collect items found) = collect items (found.map (spread find)) := by
  rcases absent_or_present found with absent | ⟨v, mem, present⟩
  · have absent' : ∀ v ∈ found.map (spread find), v = .absent := by
      intro v mem
      obtain ⟨w, inside, rfl⟩ := List.mem_map.mp mem
      rw [absent w inside, spread_absent]
    rw [collect_of_absent absent, collect_of_absent absent']
    by_cases empty : items = []
    · simp [empty, spread, spreadItems, collect, list]
    · simp [empty]
  · have filled : items.isEmpty = false := by
      refine List.isEmpty_eq_false_iff.mpr fun empty => ?_
      rw [all empty] at mem
      exact List.not_mem_nil mem
    have kept : (found.filter fun w => !w.isAbsent).isEmpty = false :=
      List.isEmpty_eq_false_iff.mpr (List.ne_nil_of_mem (mem_present mem present))
    rw [collect_of_present mem present, list, spread, spreadItems_eq_map]
    simp only [collect, ← filter_map_spread find found, filled, kept]

theorem spread_spread (find next : Fields → Value) (v : Value) :
    spread next (spread find v) = spread (fun fields => spread next (find fields)) v := by
  induction v using nested_induction with
  | object fields => simp only [spread]
  | array fixed items ih =>
    have each : (items.map (spread find)).map (spread next) =
        items.map (spread fun fields => spread next (find fields)) := by
      rw [List.map_map]
      exact List.map_congr_left ih
    simp only [spread, spreadItems_eq_map]
    rw [spread_collect next (by simp), each]
  | _ => simp only [spread]

/-- **Broadcasts compose along fields.** A broadcast along a path and then along one that is empty
or starts with a field finds what the broadcast along the whole path finds, or nothing where that
finds nothing, whatever arrays are on the way. -/
theorem broadcast_append (p q : List Element) (v : Value)
    (along : ∀ position rest, q ≠ .index position :: rest) :
    broadcast (p ++ q) v = broadcast q (broadcast p v) := by
  induction p generalizing v with
  | nil => rfl
  | cons e rest ih =>
    cases e with
    | index position => exact ih _
    | field name =>
      simp only [List.cons_append, broadcast, ih]
      cases q with
      | nil => rfl
      | cons first others =>
        cases first with
        | index position => exact absurd rfl (along position others)
        | field other => exact (spread_spread _ _ v).symm

/-- Cells of nested rows: the row without cells is dropped in the first broadcast, the cell without
a name in the second, and empty arrays stay. -/
theorem broadcast_append_cells :
    let cell : Value := .object [("name", .string "x")]
    let v : Value := .object [("rows", .list
      [.list [.object [("cells", .list [])], .object []],
        .object [("cells", .list [cell, .null])]])]
    (∀ position rest, [Element.field "name"] ≠ .index position :: rest) ∧
    broadcast [.field "name"] (broadcast [.field "rows", .field "cells"] v) =
      .list [.list [.list []], .list [.string "x"]] := by
  intro cell v
  have along : ∀ position rest, [Element.field "name"] ≠ .index position :: rest := nofun
  refine ⟨along, ?_⟩
  rw [← broadcast_append _ _ v along]
  rfl

/-- An index applies to the array of what was found, and not to each thing that was found. -/
example :
    let v : Value :=
      .list [.object [("a", .list [.int 1, .int 2])], .object [("a", .list [.int 3])]]
    broadcast [.field "a", .index 0] v = .list [.int 1, .int 3] ∧
    broadcast [.index 0] (broadcast [.field "a"] v) = .list [.int 1, .int 2] :=
  ⟨rfl, rfl⟩

/-! ## What one field accessor finds -/

/-- The accessors of the items at some positions, one inside the other. -/
def indexes (positions : List Nat) : List Element := positions.map .index

theorem spread_present_iff {find : Fields → Value} {v : Value} :
    spread find v ≠ .absent ↔ ∃ positions,
      (∃ fixed, v.resolve (indexes positions) = .array fixed []) ∨
        ∃ fields, v.resolve (indexes positions) = .object fields ∧ find fields ≠ .absent := by
  induction v using nested_induction with
  | object fields =>
    simp only [spread]
    constructor
    · intro present
      exact ⟨[], Or.inr ⟨fields, rfl, present⟩⟩
    · rintro ⟨positions, found⟩
      cases positions with
      | nil =>
        rcases found with ⟨_, other⟩ | ⟨_, same, present⟩
        · cases other
        · cases same
          exact present
      | cons position more => simp [indexes, resolve, select] at found
  | array fixed items ih =>
    simp only [spread, spreadItems_eq_map, collect_present_iff]
    constructor
    · rintro (rfl | ⟨found, mem, present⟩)
      · exact ⟨[], Or.inl ⟨fixed, rfl⟩⟩
      · obtain ⟨v, inside, rfl⟩ := List.mem_map.mp mem
        obtain ⟨positions, found⟩ := (ih v inside).mp present
        obtain ⟨position, bound, rfl⟩ := List.mem_iff_getElem.mp inside
        refine ⟨position :: positions, ?_⟩
        simpa only [indexes, List.map_cons, resolve, select, item_eq_getElem bound] using found
    · rintro ⟨positions, found⟩
      cases positions with
      | nil =>
        rcases found with ⟨_, same⟩ | ⟨_, other, _⟩
        · cases same
          exact Or.inl rfl
        · cases other
      | cons position more =>
        by_cases bound : position < items.length
        · have inside := item_mem bound
          exact Or.inr ⟨_, List.mem_map_of_mem inside, (ih _ inside).mpr ⟨more, found⟩⟩
        · have outside : item position items = .absent := by
            simp [item_eq_getElem?, Nat.not_lt.mp bound]
          simp [indexes, resolve, select, outside] at found
  | _ =>
    simp only [spread, ne_eq, not_true_eq_false, false_iff]
    rintro ⟨positions, found⟩
    cases positions with
    | nil => simp [indexes, resolve] at found
    | cons position more => simp [indexes, resolve, select] at found

@[simp] theorem broadcast_absent (p : List Element) : broadcast p .absent = .absent := by
  induction p with
  | nil => rfl
  | cons e rest ih =>
    cases e with
    | field name => rw [broadcast, spread_absent]
    | index position => rw [broadcast, select_absent, ih]

/-- A field accessor lets a broadcast find something if some positions lead to an empty array, or to
a field in which the rest of the path finds something. -/
theorem broadcast_field_iff {name : String} {rest : List Element} {v : Value} :
    broadcast (.field name :: rest) v ≠ .absent ↔ ∃ positions,
      (∃ fixed, v.resolve (indexes positions) = .array fixed []) ∨
        broadcast rest ((v.resolve (indexes positions)).select (.field name)) ≠ .absent := by
  rw [broadcast, spread_present_iff]
  refine exists_congr fun positions => or_congr_right ?_
  constructor
  · rintro ⟨fields, found, present⟩
    rw [found]
    exact present
  · intro present
    cases object : (v.resolve (indexes positions)).isObject with
    | true =>
      obtain ⟨fields, found⟩ := isObject_iff.mp object
      rw [found] at present
      exact ⟨fields, found, present⟩
    | false =>
      rw [select_field_of_isObject object, broadcast_absent] at present
      exact absurd rfl present

/-! ## When a broadcast finds something -/

/-- The second path is the first with any number of indexes put right in front of each field. -/
inductive Deepened : List Element → List Element → Prop where
  | nil : Deepened [] []
  | index (position : Nat) {p q : List Element} (rest : Deepened p q) :
      Deepened (.index position :: p) (.index position :: q)
  | field (positions : List Nat) (name : String) {p q : List Element} (rest : Deepened p q) :
      Deepened (.field name :: p) (indexes positions ++ .field name :: q)

/-- A plain lookup finds something along the path with indexes put in front of its fields. -/
def Reaches (p : List Element) (v : Value) : Prop := ∃ q, Deepened p q ∧ v.resolve q ≠ .absent

/-- A plain lookup comes to an empty array in front of one of the path's fields, along the part of
the path before it with indexes put in front of its fields and at its end. -/
def RunsDry (p : List Element) (v : Value) : Prop :=
  ∃ before name after q positions fixed, p = before ++ .field name :: after ∧
    Deepened before q ∧ v.resolve (q ++ indexes positions) = .array fixed []

section
variable {name : String} {position : Nat} {rest : List Element} {v : Value}

theorem reaches_nil : Reaches [] v ↔ v ≠ .absent := by
  constructor
  · rintro ⟨q, deepened, present⟩
    cases deepened
    exact present
  · intro present
    exact ⟨[], .nil, present⟩

theorem not_runsDry_nil : ¬ RunsDry [] v := by
  rintro ⟨before, _, _, _, _, _, split, _⟩
  simp at split

theorem reaches_index :
    Reaches (.index position :: rest) v ↔ Reaches rest (v.select (.index position)) := by
  constructor
  · rintro ⟨q, deepened, present⟩
    cases deepened with
    | index _ below => exact ⟨_, below, present⟩
  · rintro ⟨q, below, present⟩
    exact ⟨_, .index position below, present⟩

theorem runsDry_index :
    RunsDry (.index position :: rest) v ↔ RunsDry rest (v.select (.index position)) := by
  constructor
  · rintro ⟨before, name, after, q, positions, fixed, split, deepened, dry⟩
    cases deepened with
    | nil => cases split
    | index _ below =>
      cases split
      exact ⟨_, name, after, _, positions, fixed, rfl, below, dry⟩
    | field => cases split
  · rintro ⟨before, name, after, q, positions, fixed, rfl, below, dry⟩
    exact ⟨_, name, after, _, positions, fixed, rfl, .index position below, dry⟩

theorem reaches_field : Reaches (.field name :: rest) v ↔
    ∃ positions, Reaches rest ((v.resolve (indexes positions)).select (.field name)) := by
  constructor
  · rintro ⟨q, deepened, present⟩
    cases deepened with
    | field positions _ below =>
      rw [resolve_append] at present
      exact ⟨positions, _, below, present⟩
  · rintro ⟨positions, q, below, present⟩
    refine ⟨_, .field positions name below, ?_⟩
    rw [resolve_append]
    exact present

theorem runsDry_field : RunsDry (.field name :: rest) v ↔
    ∃ positions, (∃ fixed, v.resolve (indexes positions) = .array fixed []) ∨
      RunsDry rest ((v.resolve (indexes positions)).select (.field name)) := by
  constructor
  · rintro ⟨before, other, after, q, positions, fixed, split, deepened, dry⟩
    cases deepened with
    | nil => exact ⟨positions, Or.inl ⟨fixed, dry⟩⟩
    | index => cases split
    | field first _ below =>
      cases split
      rw [List.append_assoc, resolve_append] at dry
      exact ⟨first, Or.inr ⟨_, other, after, _, positions, fixed, rfl, below, dry⟩⟩
  · rintro ⟨positions, ⟨fixed, dry⟩ | ⟨before, other, after, q, more, fixed, rfl, below, dry⟩⟩
    · exact ⟨[], name, rest, [], positions, fixed, rfl, .nil, dry⟩
    · refine ⟨_, other, after, _, more, fixed, rfl, .field positions name below, ?_⟩
      rw [List.append_assoc, resolve_append]
      exact dry

end

theorem broadcast_present_iff {p : List Element} {v : Value} :
    broadcast p v ≠ .absent ↔ Reaches p v ∨ RunsDry p v := by
  induction p generalizing v with
  | nil => rw [or_iff_left not_runsDry_nil, reaches_nil, broadcast]
  | cons e rest ih =>
    cases e with
    | index position => rw [broadcast, ih, reaches_index, runsDry_index]
    | field name =>
      rw [broadcast_field_iff, reaches_field, runsDry_field, ← exists_or]
      refine exists_congr fun positions => ?_
      rw [ih, or_left_comm]

theorem broadcast_of_resolve {p : List Element} {v : Value} (present : v.resolve p ≠ .absent) :
    broadcast p v = v.resolve p := by
  induction p generalizing v with
  | nil => rfl
  | cons e rest ih =>
    cases e with
    | index position => exact ih present
    | field name =>
      cases v with
      | object fields =>
        rw [broadcast, spread]
        exact ih present
      | _ => exact absurd (resolve_absent rest) present

theorem isPart_spread {find : Fields → Value} {v : Value} (part : v.isPart = true)
    (found : ∀ fields, (Value.object fields).isJson = true → (find fields).isPart = true) :
    (spread find v).isPart = true := by
  induction v using nested_induction with
  | object fields =>
    rw [spread]
    exact found fields (isJson_of_isPart part rfl)
  | array fixed items ih =>
    rw [spread, spreadItems_eq_map]
    have members := (all_array_iff.mp (isJson_of_isPart part rfl)).2
    have parts : ∀ v ∈ items.map (spread find), v.isPart = true := by
      intro v mem
      obtain ⟨w, inside, rfl⟩ := List.mem_map.mp mem
      exact ih w inside (isPart_of_isJson (members w inside))
    generalize items.map (spread find) = results at parts
    simp only [collect]
    split
    · rfl
    · refine isPart_of_isJson (all_array_iff.mpr ⟨rfl, fun v mem => ?_⟩)
      obtain ⟨inside, present⟩ := List.mem_filter.mp mem
      exact isJson_of_isPart (parts v inside) (by simpa using present)
  | _ => simp [spread, isPart, isAbsent]

/-- In JSON, and where there is nothing, a broadcast finds JSON or nothing. -/
theorem isPart_broadcast {v : Value} (part : v.isPart = true) (p : List Element) :
    (broadcast p v).isPart = true := by
  induction p generalizing v with
  | nil => exact part
  | cons e rest ih =>
    cases e with
    | index position => exact ih (isPart_resolve_part part [.index position])
    | field name =>
      rw [broadcast]
      refine isPart_spread part fun fields json => ?_
      exact ih (isPart_select json (.field name))

/-- **When a broadcast finds something.** In JSON, a broadcast along a path finds something exactly
when a plain lookup finds something along the path with indexes put in front of its fields, or comes
to an empty array in front of one of them. Where the plain lookup along the path itself finds
something, the broadcast finds the same. What a broadcast finds is JSON: nothing absent occurs in
it. -/
theorem broadcast_finds (v : Value) (json : v.isJson = true) (p : List Element) :
    (broadcast p v ≠ .absent ↔ Reaches p v ∨ RunsDry p v) ∧
    (v.resolve p ≠ .absent → broadcast p v = v.resolve p) ∧
    (broadcast p v = .absent ∨ (broadcast p v).isJson = true) := by
  refine ⟨broadcast_present_iff, broadcast_of_resolve, ?_⟩
  have part : (broadcast p v).isPart = true := isPart_broadcast (isPart_of_isJson json) p
  exact isPart_iff.mp part

/-- An empty array of cells is found though no cell has a name, and so is the name of the one cell
in the second row of the second table. -/
theorem broadcast_finds_cell :
    let cell : Value := .object [("name", .string "x")]
    let dry : Value := .object [("cells", .list [.null, .list []])]
    let deep : Value := .list [.null, .object [("cells", .list [.list [], .list [cell]])]]
    dry.isJson = true ∧ deep.isJson = true ∧
    RunsDry [.field "cells", .field "name"] dry ∧
    Reaches [.field "cells", .field "name"] deep ∧
    broadcast [.field "cells", .field "name"] dry ≠ .absent ∧
    broadcast [.field "cells", .field "name"] deep ≠ .absent := by
  intro cell dry deep
  have json : dry.isJson = true := by decide
  have json' : deep.isJson = true := by decide
  have runsDry : RunsDry [.field "cells", .field "name"] dry :=
    ⟨[.field "cells"], "name", [], _, [1], false, rfl, .field [] "cells" .nil, rfl⟩
  have reaches : Reaches [.field "cells", .field "name"] deep :=
    ⟨_, .field [1] "cells" (.field [1, 0] "name" .nil), nofun⟩
  exact ⟨json, json', runsDry, reaches, (broadcast_finds dry json _).1.mpr (Or.inr runsDry),
    (broadcast_finds deep json' _).1.mpr (Or.inl reaches)⟩

end Recast.Value
