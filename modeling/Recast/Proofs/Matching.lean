import Mathlib.Data.List.Sort
import Recast.Proofs.Overlay
import Recast.Proofs.Pairing

/-!
Merging two arrays without an index. The plain definition compares identifiers one by one: an
element of the base that is the first of its array with its identifier is joined with the first
element of the override that has an equal one, and the elements of the override that are not used so
follow as they are (`matchAll`).

* `mem_pairs_iff`: without NaN, strictly equal identifiers pair the same elements as equal keys;
* `merge_eq_matchAll`: the merge of reconciled arrays is the plain definition's.
-/

namespace Recast.Translate

open Value

/-! ## The plain definition -/

/-- Whether an element has an identifier that is strictly equal to `id`. -/
def identifies (idField : String) (id element : Value) : Bool :=
  match idOf? idField element with
  | none => false
  | some other =>
    match strictEq id other with
    | .ok equal => equal
    | .error _ => false

/-- The position of the first element with an identifier that is strictly equal to `id`. -/
def firstWith? (idField : String) (id : Value) (elements : List Value) : Option Nat :=
  elements.findIdx? (identifies idField id)

/-- The pair that an element of the base makes, by positions. It must be the first of its array with
its identifier, and is paired with the first element of the override that has an equal one. -/
def pair? (idField : String) (items others : List Value) (i : Nat) : Option (Nat × Nat) :=
  match idOf? idField (item i items) with
  | none => none
  | some id =>
    if firstWith? idField id items = some i then
      (firstWith? idField id others).map fun j => (i, j)
    else none

/-- The pairs, in the order of the base. -/
def pairs (idField : String) (items others : List Value) : List (Nat × Nat) :=
  (List.range items.length).filterMap (pair? idField items others)

/-- The positions of the override's elements that are in no pair. -/
def unpaired (idField : String) (items others : List Value) : List Nat :=
  (List.range others.length).filter fun j => !((pairs idField items others).map (·.2)).contains j

/-- The merge of two arrays by comparing identifiers one by one. -/
def matchAll (join : Value → Value → Except Fault Value) (idField : String)
    (items others : List Value) : Except Fault (List Value) := do
  let joined ← (pairs idField items others).mapM fun p => join (item p.1 items) (item p.2 others)
  return joined ++ (unpaired idField items others).map fun j => item j others

/-! ## Equal identifiers and equal keys -/

/-- The identifiers of JSON elements are JSON, and no NaN occurs in them. -/
structure Comparable (idField : String) (elements : List Value) : Prop where
  json : ∀ v ∈ elements, v.isJson = true
  nanFree : ∀ v ∈ elements, ∀ id, idOf? idField v = some id → id.nanFree = true

section
variable {idField : String} {items others : List Value}

theorem Comparable.of_idOf? (h : Comparable idField items) {i : Nat} {id : Value}
    (identified : idOf? idField (item i items) = some id) :
    id.isJson = true ∧ id.nanFree = true ∧ keyOf? idField (item i items) = some id.normal := by
  have inside : i < items.length := by
    apply lt_length_of_item
    intro outside
    rw [outside] at identified
    cases identified
  have mem : item i items ∈ items := item_mem inside
  refine ⟨isJson_of_idOf? (h.json _ mem) identified, h.nanFree _ mem id identified, ?_⟩
  rw [keyOf?_eq (h.json _ mem), identified, Option.map_some]

theorem identifies_eq {id element : Value} (json : element.isJson = true) (hid : id.isJson = true)
    (nan : id.nanFree = true) :
    identifies idField id element = (keyOf? idField element == some id.normal) := by
  rw [keyOf?_eq json, identifies]
  cases identified : idOf? idField element with
  | none => rfl
  | some other =>
    have json' := isJson_of_idOf? json identified
    simp only [strictEq_eq id other hid json', nan, and_true, Option.map_some]
    by_cases same : id.normal = other.normal
    · simp [same]
    · simp [same, Ne.symm same]

/-- The first element with an equal identifier is the first with the identifier's key. -/
theorem firstWith?_eq_some_iff {id : Value} (json : ∀ v ∈ items, v.isJson = true)
    (hid : id.isJson = true) (nan : id.nanFree = true) {i : Nat} :
    firstWith? idField id items = some i ↔ FirstKeyed idField id.normal items i := by
  have same : items.findIdx? (identifies idField id) =
      items.findIdx? fun o => keyOf? idField o == some id.normal := by
    induction items with
    | nil => rfl
    | cons v rest ih =>
      obtain ⟨first, json⟩ := List.forall_mem_cons.mp json
      rw [List.findIdx?_cons, List.findIdx?_cons, identifies_eq first hid nan, ih json]
  rw [firstWith?, same, firstKeyed_iff]

theorem pair?_eq_some_iff (hitems : Comparable idField items)
    (hothers : Comparable idField others) {i a j : Nat} :
    pair? idField items others i = some (a, j) ↔ a = i ∧ Paired idField items others i j := by
  unfold pair?
  cases identified : idOf? idField (item i items) with
  | none =>
    simp only [reduceCtorEq, false_iff, not_and]
    rintro _ ⟨k, first, _⟩
    have unkeyed : keyOf? idField (item i items) = none := by simp [keyOf?, identified]
    cases unkeyed.symm.trans first.1
  | some id =>
    obtain ⟨hid, nan, keyed⟩ := hitems.of_idOf? identified
    have first := @firstWith?_eq_some_iff idField items id hitems.json hid nan i
    have second := @firstWith?_eq_some_iff idField others id hothers.json hid nan j
    dsimp only
    split
    · rename_i isFirst
      simp only [Option.map_eq_some_iff, Prod.mk.injEq]
      constructor
      · rintro ⟨j', found, rfl, rfl⟩
        exact ⟨rfl, id.normal, first.mp isFirst, second.mp found⟩
      · rintro ⟨rfl, k, firstOfKey, secondOfKey⟩
        obtain rfl : id.normal = k := Option.some.inj (keyed.symm.trans firstOfKey.1)
        exact ⟨j, second.mpr secondOfKey, rfl, rfl⟩
    · rename_i later
      simp only [reduceCtorEq, false_iff, not_and]
      rintro _ ⟨k, firstOfKey, _⟩
      obtain rfl : id.normal = k := Option.some.inj (keyed.symm.trans firstOfKey.1)
      exact later (first.mpr firstOfKey)

/-- **Comparing identifiers pairs what keys pair.** -/
theorem mem_pairs_iff (hitems : Comparable idField items) (hothers : Comparable idField others)
    {i j : Nat} : (i, j) ∈ pairs idField items others ↔ Paired idField items others i j := by
  simp only [pairs, List.mem_filterMap, List.mem_range, pair?_eq_some_iff hitems hothers]
  constructor
  · rintro ⟨_, _, rfl, paired⟩
    exact paired
  · intro paired
    exact ⟨i, paired.left_lt, rfl, paired⟩

theorem pairs_sorted (hitems : Comparable idField items) (hothers : Comparable idField others) :
    (pairs idField items others).Pairwise fun a b => a.1 < b.1 := by
  apply List.Pairwise.filterMap (R := (· < ·)) _ _ List.pairwise_lt_range
  rintro i i' before ⟨a, j⟩ made ⟨a', j'⟩ made'
  rw [pair?_eq_some_iff hitems hothers] at made made'
  rw [made.1, made'.1]
  exact before

/-- Pairs and kept elements are told by their positions and order. -/
theorem IdMerge.eq_pairs {join : Value → Value → Value → Prop} {ps : List (Nat × Nat)}
    {kept : List Nat} {merged : List Value} (hitems : Comparable idField items)
    (hothers : Comparable idField others) (h : IdMerge join idField items others ps kept merged) :
    ps = pairs idField items others ∧ kept = unpaired idField items others := by
  constructor
  · have irrefl : Std.Irrefl fun a b : Nat × Nat => a.1 < b.1 := ⟨fun a => Nat.lt_irrefl a.1⟩
    have antisymm : Std.Antisymm fun a b : Nat × Nat => a.1 < b.1 :=
      ⟨fun a b before after => absurd after (Nat.lt_asymm before)⟩
    apply h.pairs_sorted.eq_of_mem_iff (Translate.pairs_sorted hitems hothers)
    rintro ⟨i, j⟩
    rw [h.mem_pairs, mem_pairs_iff hitems hothers]
  · apply h.kept_sorted.eq_of_mem_iff (List.pairwise_lt_range.filter _)
    intro j
    simp only [h.mem_kept, List.mem_filter, List.mem_range, ← mem_pairs_iff hitems hothers]
    simp

end

theorem mapM_eq_ok_of_forall₂ {α β : Type} {f : α → Except Fault β} {xs : List α} {ys : List β}
    (h : List.Forall₂ (fun x y => f x = .ok y) xs ys) : xs.mapM f = .ok ys := by
  induction h with
  | nil => rfl
  | cons made _ ih => rw [List.mapM_cons, made, ok_bind, ih, ok_bind, pure_eq]

/-- **The index changes nothing.** Take two arrays of JSON at a location where arrays are
reconciled, with no NaN in the identifiers of their elements. Their merge is the plain definition's:
it joins each element of the base that is the first with its identifier and the first element of the
override that has a strictly equal one, in the order of the base, and then has the other elements of
the override as they are, in their own order. It has as many elements as the override, each element
of the override makes one of them, and no element of the base makes two. -/
theorem merge_eq_matchAll (locations : Locations) (here : Location) (idField : String)
    (fixed fixed' : Bool) (items others : List Value)
    (reconciled : locations.idField? here = some idField) (hitems : Comparable idField items)
    (hothers : Comparable idField others) :
    ∃ merged, merge locations here (.array fixed items) (.array fixed' others) =
        .ok (.list merged) ∧
      matchAll (merge locations (here ++ [Location.element])) idField items others = .ok merged ∧
      merged.length = others.length ∧
      ((pairs idField items others).map (·.2) ++ unpaired idField items others).Perm
        (List.range others.length) ∧
      ((pairs idField items others).map (·.1)).Nodup := by
  have base : (array fixed items).isJson = true :=
    all_array_iff.mpr ⟨rfl, hitems.json⟩
  have override : (array fixed' others).isJson = true := all_array_iff.mpr ⟨rfl, hothers.json⟩
  obtain ⟨r, made⟩ := merge_total locations _ base here _ (isPart_of_isJson override)
  obtain ⟨merged, ps, kept, rfl, idMerge⟩ := merge_reconciled hothers.json reconciled made
  obtain ⟨rfl, rfl⟩ := idMerge.eq_pairs hitems hothers
  refine ⟨merged, made, ?_, idMerge.length_eq, idMerge.perm, idMerge.nodup_bases⟩
  obtain ⟨joined, joins, rfl⟩ := idMerge.eq_append
  rw [matchAll, mapM_eq_ok_of_forall₂ joins]
  rfl

/-- Of two rows with one identifier in each array the first are joined, in whatever spelling; the
others of the override follow. -/
theorem merge_eq_matchAll_rows :
    let items : List Value := [.object [("id", .int 1), ("v", .null)], .null,
      .object [("id", .double (.finite false 1023 0)), ("w", .null)], .object [("id", .int 2)]]
    let others : List Value := [.object [("id", .list [])],
      .object [("id", .double (.finite false 1023 0)), ("v", .bool true)], .object [("id", .int 1)]]
    let merged : List Value :=
      [.object [("id", .double (.finite false 1023 0)), ("v", .bool true)],
        .object [("id", .list [])], .object [("id", .int 1)]]
    Locations.idField? [(["rows"], "id")] ["rows"] = some "id" ∧ Comparable "id" items ∧
      Comparable "id" others ∧ pairs "id" items others = [(0, 1)] ∧
      merge [(["rows"], "id")] ["rows"] (.list items) (.list others) = .ok (.list merged) ∧
      matchAll (merge [(["rows"], "id")] ["rows", Location.element]) "id" items others =
        .ok merged := by
  intro items others merged
  have reconciled : Locations.idField? [(["rows"], "id")] ["rows"] = some "id" := rfl
  have hitems : Comparable "id" items := by
    constructor
    · decide
    · intro v mem id identified
      simp only [items, List.mem_cons, List.not_mem_nil, or_false] at mem
      rcases mem with rfl | rfl | rfl | rfl <;> cases identified <;> decide
  have hothers : Comparable "id" others := by
    constructor
    · decide
    · intro v mem id identified
      simp only [others, List.mem_cons, List.not_mem_nil, or_false] at mem
      rcases mem with rfl | rfl | rfl <;> cases identified <;> decide
  have made : merge [(["rows"], "id")] ["rows"] (.list items) (.list others) =
      .ok (.list merged) := by rfl
  obtain ⟨merged', made', matched, _⟩ :=
    merge_eq_matchAll _ _ _ false false items others reconciled hitems hothers
  obtain rfl : merged = merged' := by
    have same := made.symm.trans made'
    simpa [Value.list] using same
  exact ⟨reconciled, hitems, hothers, by rfl, made, matched⟩

end Recast.Translate
