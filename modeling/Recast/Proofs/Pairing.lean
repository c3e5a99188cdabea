import Mathlib.Data.List.Forall2
import Recast.Proofs.Identity

/-!
Merging two arrays by identifiers. An element of the base and one of the override are paired when
each is the first of its array whose identifier has their common key. The merge is made of the
pairs, in the order of the base, and then of the elements of the override that are in no pair, in
their own order (`IdMerge`).

* `merge_reconciled`: the merge of two arrays is of this form;
* `IdMerge.perm`, `IdMerge.length_eq`: each element of the override makes one element of it;
* `IdMerge.nodup_bases`: no element of the base makes two.
-/

namespace Recast.Translate

open Value

/-! ## Pairs -/

/-- An element is the first of its array whose identifier has a key. -/
def FirstKeyed (idField : String) (k : Key) (items : List Value) (i : Nat) : Prop :=
  keyOf? idField (item i items) = some k ∧
    ∀ earlier < i, keyOf? idField (item earlier items) ≠ some k

/-- Two elements are each the first of their array whose identifier has their common key. -/
def Paired (idField : String) (items others : List Value) (i j : Nat) : Prop :=
  ∃ k, FirstKeyed idField k items i ∧ FirstKeyed idField k others j

theorem firstKeyed_iff {idField : String} {k : Key} {items : List Value} {i : Nat} :
    FirstKeyed idField k items i ↔
      (items.findIdx? fun o => keyOf? idField o == some k) = some i := by
  rw [findIdx?_iff_item rfl]
  simp [FirstKeyed]

theorem FirstKeyed.unique {idField : String} {k : Key} {items : List Value} {i j : Nat}
    (hi : FirstKeyed idField k items i) (hj : FirstKeyed idField k items j) : i = j := by
  rw [firstKeyed_iff] at hi hj
  rw [hi] at hj
  exact Option.some.inj hj

theorem FirstKeyed.lt_length {idField : String} {k : Key} {items : List Value} {i : Nat}
    (h : FirstKeyed idField k items i) : i < items.length := by
  apply lt_length_of_item
  intro outside
  have keyed := h.1
  rw [outside] at keyed
  cases keyed

namespace Paired

variable {idField : String} {items others : List Value}

theorem left_unique {i i' j : Nat} (h : Paired idField items others i j)
    (h' : Paired idField items others i' j) : i = i' := by
  obtain ⟨k, first, second⟩ := h
  obtain ⟨k', first', second'⟩ := h'
  have same : some k = some k' := second.1.symm.trans second'.1
  cases same
  exact first.unique first'

theorem left_lt {i j : Nat} (h : Paired idField items others i j) : i < items.length := by
  obtain ⟨_, first, _⟩ := h
  exact first.lt_length

theorem right_lt {i j : Nat} (h : Paired idField items others i j) : j < others.length := by
  obtain ⟨_, _, second⟩ := h
  exact second.lt_length

end Paired

/-- The position of the first element whose identifier has the key of another element's. -/
def partner? (idField : String) (others : List Value) (element : Value) : Option Nat :=
  (keyOf? idField element).bind fun k => others.findIdx? fun o => keyOf? idField o == some k

theorem partner?_eq_some_iff {idField : String} {others : List Value} {element : Value} {j : Nat} :
    partner? idField others element = some j ↔
      ∃ k, keyOf? idField element = some k ∧ FirstKeyed idField k others j := by
  simp [partner?, firstKeyed_iff, Option.bind_eq_some_iff]

/-- Two elements are paired when the second is the partner of the first and of none before it. -/
theorem paired_iff {idField : String} {items others : List Value} {i j : Nat} :
    Paired idField items others i j ↔
      partner? idField others (item i items) = some j ∧
        ∀ earlier < i, partner? idField others (item earlier items) ≠ some j := by
  simp only [ne_eq, partner?_eq_some_iff]
  constructor
  · rintro ⟨k, ⟨keyed, before⟩, second⟩
    refine ⟨⟨k, keyed, second⟩, fun earlier he => ?_⟩
    rintro ⟨k', keyed', second'⟩
    have same : some k = some k' := second.1.symm.trans second'.1
    exact before earlier he (keyed'.trans same.symm)
  · rintro ⟨⟨k, keyed, second⟩, before⟩
    exact ⟨k, ⟨keyed, fun earlier he keyed' => before earlier he ⟨k, keyed', second⟩⟩, second⟩

theorem exists_paired {idField : String} {items others : List Value} {i j : Nat}
    (h : partner? idField others (item i items) = some j) :
    ∃ i', Paired idField items others i' j := by
  induction i using Nat.strongRecOn with
  | ind i ih =>
    by_cases before : ∃ earlier < i, partner? idField others (item earlier items) = some j
    · obtain ⟨earlier, he, same⟩ := before
      exact ih earlier he same
    · refine ⟨i, paired_iff.mpr ⟨h, fun earlier he same => before ⟨earlier, he, same⟩⟩⟩

/-! ## The merge by identifiers -/

/-- A list is the merge of two by identifiers: first each pair, joined, in the order of the base,
then the elements of the override that are in no pair, in their own order. -/
structure IdMerge (join : Value → Value → Value → Prop) (idField : String)
    (items others : List Value) (pairs : List (Nat × Nat)) (kept : List Nat)
    (merged : List Value) : Prop where
  mem_pairs : ∀ i j, (i, j) ∈ pairs ↔ Paired idField items others i j
  pairs_sorted : pairs.Pairwise fun a b => a.1 < b.1
  mem_kept : ∀ j, j ∈ kept ↔ j < others.length ∧ ∀ i, ¬ Paired idField items others i j
  kept_sorted : kept.Pairwise (· < ·)
  eq_append : ∃ joined,
    List.Forall₂ (fun p r => join (item p.1 items) (item p.2 others) r) pairs joined ∧
      merged = joined ++ kept.map fun j => item j others

namespace IdMerge

variable {join : Value → Value → Value → Prop} {idField : String} {items others : List Value}
  {pairs : List (Nat × Nat)} {kept : List Nat} {merged : List Value}

theorem nodup_bases (h : IdMerge join idField items others pairs kept merged) :
    (pairs.map (·.1)).Nodup := by
  rw [List.Nodup, List.pairwise_map]
  exact h.pairs_sorted.imp fun before => Nat.ne_of_lt before

theorem nodup_overrides (h : IdMerge join idField items others pairs kept merged) :
    (pairs.map (·.2)).Nodup := by
  have distinct : pairs.Nodup := h.nodup_bases.of_map
  refine distinct.map_on ?_
  rintro ⟨i, j⟩ hi ⟨i', j'⟩ hi' (rfl : j = j')
  rw [((h.mem_pairs i j).mp hi).left_unique ((h.mem_pairs i' j).mp hi')]

/-- Each element of the override is in one pair or is kept as it is. -/
theorem perm (h : IdMerge join idField items others pairs kept merged) :
    (pairs.map (·.2) ++ kept).Perm (List.range others.length) := by
  have kept_nodup : kept.Nodup := h.kept_sorted.imp fun before => Nat.ne_of_lt before
  have disjoint : List.Disjoint (pairs.map (·.2)) kept := by
    intro j hj hk
    obtain ⟨⟨i, _⟩, hi, rfl⟩ := List.mem_map.mp hj
    exact ((h.mem_kept _).mp hk).2 i ((h.mem_pairs _ _).mp hi)
  refine (List.perm_ext_iff_of_nodup (h.nodup_overrides.append kept_nodup disjoint)
    List.nodup_range).mpr fun j => ?_
  rw [List.mem_append, List.mem_range]
  constructor
  · rintro (hj | hj)
    · obtain ⟨⟨i, _⟩, hi, rfl⟩ := List.mem_map.mp hj
      exact ((h.mem_pairs _ _).mp hi).right_lt
    · exact ((h.mem_kept j).mp hj).1
  · intro inside
    by_cases paired : ∃ i, Paired idField items others i j
    · obtain ⟨i, hi⟩ := paired
      exact Or.inl (List.mem_map.mpr ⟨(i, j), (h.mem_pairs i j).mpr hi, rfl⟩)
    · exact Or.inr ((h.mem_kept j).mpr ⟨inside, fun i hi => paired ⟨i, hi⟩⟩)

theorem length_eq (h : IdMerge join idField items others pairs kept merged) :
    merged.length = others.length := by
  obtain ⟨joined, all, rfl⟩ := h.eq_append
  have used := h.perm.length_eq
  rw [List.length_append, List.length_map, List.length_range, all.length_eq] at used
  rw [List.length_append, List.length_map, used]

/-- Each element of the merge is a pair, joined, or an element of the override. -/
theorem exists_of_mem (h : IdMerge join idField items others pairs kept merged) {r : Value}
    (mem : r ∈ merged) : (∃ b ∈ items, ∃ o ∈ others, join b o r) ∨ r ∈ others := by
  obtain ⟨joined, all, rfl⟩ := h.eq_append
  rcases List.mem_append.mp mem with mem | mem
  · obtain ⟨n, inside, rfl⟩ := List.mem_iff_getElem.mp mem
    have inside' : n < pairs.length := by
      rw [all.length_eq]
      exact inside
    have paired : Paired idField items others pairs[n].1 pairs[n].2 :=
      (h.mem_pairs _ _).mp (List.getElem_mem inside')
    exact Or.inl ⟨_, item_mem paired.left_lt, _, item_mem paired.right_lt, all.get inside' inside⟩
  · obtain ⟨j, hj, rfl⟩ := List.mem_map.mp mem
    exact Or.inr (item_mem ((h.mem_kept j).mp hj).1)

end IdMerge

/-! ## What merging does -/

theorem unmatched_eq (matched : List Nat) (n : Nat) (rest : List Value) :
    unmatched matched n rest =
      ((List.range' n rest.length).filter fun j => !matched.contains j).map
        fun j => item (j - n) rest := by
  induction rest generalizing n with
  | nil => rfl
  | cons v rest ih =>
    have later : ∀ j ∈ (List.range' (n + 1) rest.length).filter fun j => !matched.contains j,
        item (j - (n + 1)) rest = item (j - n) (v :: rest) := by
      intro j hj
      have hn : n + 1 ≤ j := (List.mem_range'_1.mp (List.mem_filter.mp hj).1).1
      obtain ⟨m, rfl⟩ := Nat.exists_eq_add_of_le hn
      rw [show n + 1 + m - (n + 1) = m by omega, show n + 1 + m - n = m + 1 by omega]
      rfl
    rw [unmatched, ih, List.map_congr_left later, List.length_cons, List.range'_succ]
    by_cases used : n ∈ matched <;> simp [used, item]

section
variable {locations : Locations} {here : Location} {idField : String}
  {index : List (Key × Nat)} {others : List Value}

/-- One step of the merge: an element whose partner is not used yet is joined with it, and any other
is dropped. -/
theorem mergeItems_cons
    (found : ∀ k, index.lookup k = others.findIdx? fun o => keyOf? idField o == some k)
    {matched used : List Nat} {element : Value} {rest joined : List Value}
    (h : mergeItems locations here idField index others matched (element :: rest) =
      .ok (joined, used)) :
    ((∀ j, partner? idField others element = some j → j ∈ matched) ∧
      mergeItems locations here idField index others matched rest = .ok (joined, used)) ∨
    ∃ j first tail, partner? idField others element = some j ∧ j ∉ matched ∧
      merge locations (here ++ [Location.element]) element (item j others) = .ok first ∧
      mergeItems locations here idField index others (j :: matched) rest = .ok (tail, used) ∧
      joined = first :: tail := by
  rw [mergeItems] at h
  split at h
  · rename_i unidentified
    exact Or.inl ⟨by simp [partner?, keyOf?, unidentified], h⟩
  · rename_i id identified
    obtain ⟨key, keyed, h⟩ := bind_eq_ok.mp h
    have partner : partner? idField others element = index.lookup key := by
      simp [partner?, keyOf?, identified, keyed, Except.toOption, found]
    rw [partner]
    split at h
    · rename_i unknown
      exact Or.inl ⟨by simp [unknown], h⟩
    · rename_i j known
      rw [known]
      split at h
      · rename_i taken
        exact Or.inl ⟨by simpa using taken, h⟩
      · rename_i free
        obtain ⟨first, made, h⟩ := bind_eq_ok.mp h
        obtain ⟨⟨tail, used'⟩, rest', h⟩ := bind_eq_ok.mp h
        cases h
        exact Or.inr ⟨j, first, tail, rfl, by simpa using free, made, rest', rfl⟩

/-- The merge of the items from some position on: the elements of the override that are used before
it are the partners of the items before it. -/
theorem mergeItems_ok
    (found : ∀ k, index.lookup k = others.findIdx? fun o => keyOf? idField o == some k)
    (items seen : List Value) {rest joined : List Value} {matched used : List Nat}
    (split : items = seen ++ rest)
    (before : ∀ j, j ∈ matched ↔
      ∃ i < seen.length, partner? idField others (item i items) = some j)
    (h : mergeItems locations here idField index others matched rest = .ok (joined, used)) :
    ∃ pairs : List (Nat × Nat),
      (∀ i j, (i, j) ∈ pairs ↔ seen.length ≤ i ∧ Paired idField items others i j) ∧
      (pairs.Pairwise fun a b => a.1 < b.1) ∧
      List.Forall₂ (fun p r => merge locations (here ++ [Location.element]) (item p.1 items)
        (item p.2 others) = .ok r) pairs joined ∧
      ∀ j, j ∈ used ↔ ∃ i, Paired idField items others i j := by
  induction rest generalizing seen matched joined with
  | nil =>
    cases h
    obtain rfl : items = seen := by simpa using split
    refine ⟨[], ?_, List.Pairwise.nil, List.Forall₂.nil, fun j => ?_⟩
    · intro i j
      simp only [List.not_mem_nil, false_iff, not_and]
      intro outside paired
      exact absurd paired.left_lt (by omega)
    · rw [before]
      constructor
      · rintro ⟨i, _, partner⟩
        exact exists_paired partner
      · rintro ⟨i, paired⟩
        exact ⟨i, paired.left_lt, (paired_iff.mp paired).1⟩
  | cons element rest ih =>
    have here_item : item seen.length items = element := by
      simp [split, item_eq_getElem?]
    have split' : items = (seen ++ [element]) ++ rest := by simp [split]
    -- Among the items up to this one, the partners are the ones before and this one's.
    have upTo : ∀ j, (∃ i < (seen ++ [element]).length,
        partner? idField others (item i items) = some j) ↔
          j ∈ matched ∨ partner? idField others element = some j := by
      intro j
      rw [before, List.length_append, List.length_singleton, Nat.exists_lt_succ_right, here_item]
    rcases mergeItems_cons found h with
      ⟨taken, more⟩ | ⟨j, first, tail, partner, free, made, more, rfl⟩
    · have before' : ∀ j, j ∈ matched ↔
          ∃ i < (seen ++ [element]).length, partner? idField others (item i items) = some j := by
        intro j
        rw [upTo]
        exact ⟨Or.inl, fun h => h.elim id (taken j)⟩
      obtain ⟨pairs, mem, sorted, joins, all⟩ := ih (seen ++ [element]) split' before' more
      refine ⟨pairs, fun i j => ?_, sorted, joins, all⟩
      rw [mem, List.length_append, List.length_singleton]
      constructor
      · rintro ⟨later, paired⟩
        exact ⟨by omega, paired⟩
      · rintro ⟨later, paired⟩
        refine ⟨Nat.lt_of_le_of_ne later ?_, paired⟩
        rintro rfl
        obtain ⟨mine, unused⟩ := paired_iff.mp paired
        rw [here_item] at mine
        obtain ⟨i, hi, same⟩ := (before j).mp (taken j mine)
        exact unused i hi same
    · have before' : ∀ j', j' ∈ j :: matched ↔
          ∃ i < (seen ++ [element]).length, partner? idField others (item i items) = some j' := by
        intro j'
        rw [upTo, List.mem_cons, partner, Option.some.injEq, or_comm, eq_comm]
      have paired : Paired idField items others seen.length j := by
        refine paired_iff.mpr ⟨by rw [here_item]; exact partner, fun i hi same => ?_⟩
        exact free ((before j).mpr ⟨i, hi, same⟩)
      obtain ⟨pairs, mem, sorted, joins, all⟩ := ih (seen ++ [element]) split' before' more
      rw [List.length_append, List.length_singleton] at mem
      refine ⟨(seen.length, j) :: pairs, fun i j' => ?_, ?_, ?_, all⟩
      · rw [List.mem_cons, mem, Prod.mk.injEq]
        constructor
        · rintro (⟨rfl, rfl⟩ | ⟨later, paired'⟩)
          · exact ⟨Nat.le_refl _, paired⟩
          · exact ⟨by omega, paired'⟩
        · rintro ⟨later, paired'⟩
          rcases Nat.eq_or_lt_of_le later with rfl | later
          · have same := (paired_iff.mp paired).1.symm.trans (paired_iff.mp paired').1
            exact Or.inl ⟨rfl, (Option.some.inj same).symm⟩
          · exact Or.inr ⟨later, paired'⟩
      · refine List.pairwise_cons.mpr ⟨?_, sorted⟩
        rintro ⟨i, j'⟩ later
        exact ((mem i j').mp later).1
      · refine List.Forall₂.cons ?_ joins
        rw [here_item]
        exact made

end

/-- Where arrays are reconciled, the index of the override's identifiers leads to their merge by
identifiers. -/
theorem merge_indexed {locations : Locations} {here : Location} {idField : String}
    {fixed fixed' : Bool} {items others : List Value} {index : List (Key × Nat)} {r : Value}
    (reconciled : locations.idField? here = some idField)
    (built : idIndex idField 0 others = .ok index)
    (found : ∀ k, index.lookup k = others.findIdx? fun o => keyOf? idField o == some k)
    (h : merge locations here (.array fixed items) (.array fixed' others) = .ok r) :
    ∃ merged pairs kept, r = .list merged ∧
      IdMerge (fun b o r => merge locations (here ++ [Location.element]) b o = .ok r) idField
        items others pairs kept merged := by
  simp only [merge, reconciled, built, ok_bind] at h
  obtain ⟨⟨joined, used⟩, made, h⟩ := bind_eq_ok.mp h
  cases h
  obtain ⟨pairs, mem, sorted, joins, all⟩ :=
    mergeItems_ok found items [] rfl (by simp) made
  refine ⟨_, pairs, (List.range others.length).filter fun j => !used.contains j, rfl, ?_⟩
  constructor
  · simpa using mem
  · exact sorted
  · intro j
    simp [all]
  · exact List.pairwise_lt_range.filter _
  · refine ⟨joined, joins, ?_⟩
    rw [unmatched_eq, ← List.range_eq_range']
    rfl

/-- **Reconciled arrays.** Where the base's and the override's arrays are reconciled, the result is
their merge by identifiers. -/
theorem merge_reconciled {locations : Locations} {here : Location} {idField : String}
    {fixed fixed' : Bool} {items others : List Value} {r : Value}
    (json : ∀ v ∈ others, v.isJson = true) (reconciled : locations.idField? here = some idField)
    (h : merge locations here (.array fixed items) (.array fixed' others) = .ok r) :
    ∃ merged pairs kept, r = .list merged ∧
      IdMerge (fun b o r => merge locations (here ++ [Location.element]) b o = .ok r) idField
        items others pairs kept merged := by
  obtain ⟨index, built, found⟩ := lookup_idIndex idField 0 json
  simp only [Nat.zero_add, Option.map_id_fun'] at found
  exact merge_indexed reconciled built found h

end Recast.Translate
