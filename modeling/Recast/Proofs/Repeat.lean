import Mathlib.Data.List.Forall2
import Recast.Proofs.Overlay
import Recast.Proofs.Pairing
import Recast.Proofs.Pliant

/-!
Laying an override over a value again. What an override makes of a base it leaves as it is when it
is laid over it once more, fields and elements in their places (`absorbed_of_merge`). This needs
arrays whose elements are told apart: then every element of the result finds the element of the
override again that it was made of, and there is one for each. Where such an array is fixed, there
is a list in its place the second time, and nothing else changes (`merge_again`). For translations
it is `translate_repeats`.
-/

namespace Recast

open Value

namespace Translate

/-- An override that is laid over a value changes nothing. -/
def Absorbed (locations : Locations) (here : Location) (override v : Value) : Prop :=
  merge locations here v override = .ok v

/-- The elements of an array are told apart: each is an object with an identifier that has no
members, and the keys of the identifiers differ. -/
structure ToldApart (idField : String) (items : List Value) : Prop where
  identified : ∀ v ∈ items, ∃ id k, idOf? idField v = some id ∧ id.isScalar = true ∧ id.key = .ok k
  distinct : (items.map (keyOf? idField)).Nodup

/-- Wherever merging comes in an override, the fields of an object have different names, and the
elements of an array that is reconciled are told apart. Such an array is a list, unless `loose`. -/
inductive Settled (locations : Locations) (loose : Bool) : Location → Value → Prop where
  | scalar {here : Location} {v : Value} (single : v.isScalar = true) :
      Settled locations loose here v
  | object {here : Location} {fields : Fields} (distinct : (Fields.names fields).Nodup)
      (members : ∀ f ∈ fields, Settled locations loose (here ++ [f.1]) f.2) :
      Settled locations loose here (.object fields)
  | array {here : Location} {fixed : Bool} {items : List Value}
      (whole : locations.idField? here = none) : Settled locations loose here (.array fixed items)
  | reconciled {here : Location} {idField : String} {fixed : Bool} {items : List Value}
      (found : locations.idField? here = some idField) (kind : fixed = true → loose = true)
      (apart : ToldApart idField items)
      (members : ∀ v ∈ items, Settled locations loose (here ++ [Location.element]) v) :
      Settled locations loose here (.array fixed items)

variable {locations : Locations} {here : Location}

/-! ## Objects -/

/-- Fields that absorb the override's fields of their names stay as they are. -/
theorem mergeFields_of_absorbed {fields others : Fields}
    (each : ∀ f ∈ fields, Fields.has f.1 others = true →
      Absorbed locations (here ++ [f.1]) (Fields.get f.1 others) f.2) :
    mergeFields locations here fields others = .ok fields := by
  induction fields with
  | nil => rfl
  | cons field rest ih =>
    obtain ⟨name, v⟩ := field
    obtain ⟨first, later⟩ := List.forall_mem_cons.mp each
    rw [mergeFields, ih later]
    split
    · rename_i overridden
      have absorbed : merge locations (here ++ [name]) v (Fields.get name others) = .ok v :=
        first overridden
      rw [absorbed]
      rfl
    · rfl

theorem absorbed_object {fields others : Fields}
    (each : ∀ f ∈ fields, Fields.has f.1 others = true →
      Absorbed locations (here ++ [f.1]) (Fields.get f.1 others) f.2)
    (covered : ∀ f ∈ others, Fields.has f.1 fields = true) :
    Absorbed locations here (.object others) (.object fields) := by
  have nothing : (others.filter fun f => !Fields.has f.1 fields) = [] := by
    rw [List.filter_eq_nil_iff]
    intro f mem
    simp [covered f mem]
  rw [Absorbed, merge, mergeFields_of_absorbed each, nothing]
  simp

/-! ## Identifiers -/

section
variable {idField : String} {others : List Value}

theorem ToldApart.keyed (apart : ToldApart idField others) {j : Nat} (inside : j < others.length) :
    ∃ id k, idOf? idField (item j others) = some id ∧ id.isScalar = true ∧
      keyOf? idField (item j others) = some k := by
  have here_item : item j others = others[j] := by simp [item_eq_getElem?, inside]
  obtain ⟨id, k, identified, scalar, key⟩ := apart.identified _ (List.getElem_mem inside)
  refine ⟨id, k, by rw [here_item, identified], scalar, ?_⟩
  rw [here_item]
  simp [keyOf?, identified, key, Except.toOption]

/-- An element that is told apart is the first with its key. -/
theorem ToldApart.firstKeyed (apart : ToldApart idField others) {j : Nat} {k : Key}
    (inside : j < others.length) (key : keyOf? idField (item j others) = some k) :
    FirstKeyed idField k others j := by
  refine ⟨key, fun i before same => ?_⟩
  have inside' : i < others.length := Nat.lt_trans before inside
  let keys := others.map (keyOf? idField)
  have left : i < keys.length := by simpa [keys] using inside'
  have right : j < keys.length := by simpa [keys] using inside
  have equal : keys[i] = keys[j] := by
    rw [item_eq_getElem?] at key same
    simp only [inside, inside', List.getElem?_eq_getElem, Option.getD_some] at key same
    simp only [keys, List.getElem_map, key, same]
  have positions : i = j := apart.distinct.getElem_inj_iff.mp equal
  omega

theorem ToldApart.partner (apart : ToldApart idField others) {j : Nat}
    (inside : j < others.length) : partner? idField others (item j others) = some j := by
  obtain ⟨_, k, _, _, key⟩ := apart.keyed inside
  exact partner?_eq_some_iff.mpr ⟨k, key, apart.firstKeyed inside key⟩

end

/-- A value without members takes the place of anything. -/
theorem merge_scalar {base override : Value} (scalar : override.isScalar = true) :
    merge locations here base override = .ok override := by
  apply merge_override
  intro same
  rw [same]
  cases override with
  | object | array => cases scalar
  | _ => exact ⟨by simp [kind?], by simp [kind?]⟩

/-- Where an override has an identifier without members, so has what it makes of a base. -/
theorem idOf?_merge {idField : String} {base override r id : Value}
    (identified : idOf? idField override = some id) (scalar : id.isScalar = true)
    (h : merge locations here base override = .ok r) : idOf? idField r = some id := by
  cases override with
  | object others =>
    have has : Fields.has idField others = true ∧ Fields.get idField others = id := by
      simpa [idOf?] using identified
    obtain ⟨has, value⟩ := has
    cases object : base.isObject with
    | false =>
      rw [merge_replaced object] at h
      cases h
      exact identified
    | true =>
      have laid := merge_select h has
      rw [value, merge_scalar scalar] at laid
      obtain ⟨fields, rfl⟩ := isObject_iff.mp object
      obtain ⟨merged, made, rfl⟩ := merge_objects_ok h
      have kept := (has_merged made idField).mpr (Or.inr has)
      simp only [idOf?, kept, if_true]
      exact congrArg some (Except.ok.inj laid).symm
  | _ => cases identified

/-! ## Arrays -/

section
variable {idField : String} {index : List (Key × Nat)} {others : List Value}

/-- An element absorbs its partner in the override, at the given position. -/
def AbsorbedAt (locations : Locations) (here : Location) (idField : String) (others : List Value)
    (v : Value) (j : Nat) : Prop :=
  partner? idField others v = some j ∧
    Absorbed locations (here ++ [Location.element]) (item j others) v

theorem mergeItems_of_absorbed
    (found : ∀ k, index.lookup k = others.findIdx? fun o => keyOf? idField o == some k)
    {items : List Value} {positions matched : List Nat}
    (each : List.Forall₂ (AbsorbedAt locations here idField others) items positions)
    (fresh : (positions ++ matched).Nodup) :
    mergeItems locations here idField index others matched items =
      .ok (items, positions.reverse ++ matched) := by
  induction each generalizing matched with
  | nil => rfl
  | @cons v j rest _ first _ ih =>
    obtain ⟨partner, absorbed⟩ := first
    obtain ⟨k, keyed, firstKeyed⟩ := partner?_eq_some_iff.mp partner
    obtain ⟨id, identified, key⟩ := Option.bind_eq_some_iff.mp keyed
    have key' : id.key = .ok k := by
      cases made : id.key with
      | ok k' =>
        rw [made] at key
        cases key
        rfl
      | error f =>
        rw [made] at key
        cases key
    have position : index.lookup k = some j := by
      rw [found]
      exact firstKeyed_iff.mp firstKeyed
    obtain ⟨unused, fresh⟩ := List.nodup_cons.mp fresh
    have free : matched.contains j = false := by
      simpa using fun mem => unused (List.mem_append_right _ mem)
    have later : ((_ : List Nat) ++ j :: matched).Nodup :=
      List.nodup_middle.mpr (List.nodup_cons.mpr ⟨unused, fresh⟩)
    have made : merge locations (here ++ [Location.element]) v (item j others) = .ok v := absorbed
    rw [mergeItems]
    simp only [identified, key', ok_bind, position, free, made, ih later]
    simp

/-- A list whose elements absorb all elements of an override, each its own, absorbs the override. -/
theorem absorbed_list (reconciled : locations.idField? here = some idField)
    (built : idIndex idField 0 others = .ok index)
    (found : ∀ k, index.lookup k = others.findIdx? fun o => keyOf? idField o == some k)
    {items : List Value} {positions : List Nat} {fixed : Bool}
    (each : List.Forall₂ (AbsorbedAt locations here idField others) items positions)
    (all : positions.Perm (List.range others.length)) :
    Absorbed locations here (.array fixed others) (.list items) := by
  have distinct : (positions ++ []).Nodup := by
    rw [List.append_nil, all.nodup_iff]
    exact List.nodup_range
  have nothing : unmatched (positions.reverse ++ []) 0 others = [] := by
    rw [unmatched_eq, List.map_eq_nil_iff, List.filter_eq_nil_iff]
    intro j mem
    rw [← List.range_eq_range'] at mem
    simpa using all.mem_iff.mpr mem
  rw [Absorbed, list, merge]
  simp only [reconciled, built, ok_bind, mergeItems_of_absorbed found each distinct, nothing]
  simp [list]

theorem ToldApart.exists_index (apart : ToldApart idField others) :
    ∃ index, idIndex idField 0 others = .ok index ∧
      ∀ k, index.lookup k = others.findIdx? fun o => keyOf? idField o == some k := by
  have keyed : ∀ v ∈ others, ∀ id, idOf? idField v = some id → ∃ k, id.key = .ok k := by
    intro v mem id identified
    obtain ⟨id', k, identified', _, key⟩ := apart.identified v mem
    rw [identified] at identified'
    cases identified'
    exact ⟨k, key⟩
  obtain ⟨index, built⟩ := exists_idIndex idField 0 keyed
  refine ⟨index, built, fun k => ?_⟩
  have position := lookup_of_idIndex built k
  simp only [Nat.zero_add, Option.map_id_fun'] at position
  exact position

end

/-! ## Laying an override over a value again -/

/-- What is settled absorbs itself. -/
theorem absorbed_self {override : Value} (settled : Settled locations false here override) :
    Absorbed locations here override override := by
  induction settled with
  | scalar single => exact merge_scalar single
  | object distinct members ih =>
    apply absorbed_object
    · intro f mem _
      rw [Fields.get_of_mem distinct mem]
      exact ih f mem
    · exact fun f mem => Fields.has_iff.mpr (List.mem_map_of_mem mem)
  | array whole =>
    rw [Absorbed, merge]
    simp only [whole]
  | @reconciled here idField fixed items found kind apart members ih =>
    obtain rfl : fixed = false := by simpa using kind
    obtain ⟨index, built, lookups⟩ := apart.exists_index
    apply absorbed_list found built lookups _ (List.Perm.refl _)
    rw [List.forall₂_iff_get]
    refine ⟨by simp, fun j inside _ => ?_⟩
    have own : item j items = items[j] := by simp [item_eq_getElem?, inside]
    have partner := apart.partner inside
    rw [own] at partner
    simp only [List.get_eq_getElem, List.getElem_range]
    refine ⟨partner, ?_⟩
    rw [own]
    exact ih _ (List.getElem_mem inside)

/-- The elements of a merge by identifiers absorb those of the override, each the one that it was
made of, where what is made of one element absorbs it. -/
theorem absorbed_of_idMerge {idField : String} {items others merged : List Value}
    {pairs : List (Nat × Nat)} {kept : List Nat} (apart : ToldApart idField others)
    (members : ∀ v ∈ others, Settled locations false (here ++ [Location.element]) v)
    (again : ∀ v ∈ others, ∀ b r, merge locations (here ++ [Location.element]) b v = .ok r →
      Absorbed locations (here ++ [Location.element]) v r)
    (h : IdMerge (fun b o r => merge locations (here ++ [Location.element]) b o = .ok r) idField
      items others pairs kept merged) :
    List.Forall₂ (AbsorbedAt locations here idField others) merged (pairs.map (·.2) ++ kept) := by
  have mem_item : ∀ {j}, j < others.length → item j others ∈ others := by
    intro j inside
    have own : item j others = others[j] := by simp [item_eq_getElem?, inside]
    rw [own]
    exact List.getElem_mem inside
  obtain ⟨joined, joins, rfl⟩ := h.eq_append
  apply List.rel_append
  · rw [List.forall₂_map_right_iff]
    have inside : ∀ p ∈ pairs, p.2 < others.length :=
      fun p mem => ((h.mem_pairs p.1 p.2).mp mem).right_lt
    refine ((List.forall₂_and_left pairs joined).mpr ⟨inside, joins⟩).flip.imp ?_
    rintro r ⟨i, j⟩ ⟨inside, made⟩
    obtain ⟨id, k, identified, scalar, keyed⟩ := apart.keyed inside
    have same : keyOf? idField r = some k := by
      rw [← keyed, keyOf?, keyOf?, idOf?_merge identified scalar made, identified]
    exact ⟨partner?_eq_some_iff.mpr ⟨k, same, apart.firstKeyed inside keyed⟩,
      again _ (mem_item inside) _ _ made⟩
  · rw [List.forall₂_map_left_iff, List.forall₂_same]
    intro j mem
    have inside := ((h.mem_kept j).mp mem).1
    exact ⟨apart.partner inside, absorbed_self (members _ (mem_item inside))⟩

/-- **Merging again.** What a settled override makes of a base absorbs the override. -/
theorem absorbed_of_merge {override base r : Value}
    (settled : Settled locations false here override)
    (h : merge locations here base override = .ok r) : Absorbed locations here override r := by
  induction settled generalizing base r with
  | scalar single =>
    rw [merge_scalar single] at h
    cases h
    exact merge_scalar single
  | @object here others distinct members ih =>
    cases object : base.isObject with
    | false =>
      rw [merge_replaced object] at h
      cases h
      exact absorbed_self (Settled.object distinct members)
    | true =>
      obtain ⟨fields, rfl⟩ := isObject_iff.mp object
      obtain ⟨merged, made, rfl⟩ := merge_objects_ok h
      apply absorbed_object
      · intro f mem overridden
        rcases List.mem_append.mp mem with mem | mem
        · obtain ⟨v, _, laid⟩ := exists_of_mem_mergeFields made mem
          rw [if_pos overridden] at laid
          exact ih _ (Fields.mem_of_has overridden) laid
        · obtain ⟨mem, _⟩ := List.mem_filter.mp mem
          rw [Fields.get_of_mem distinct mem]
          exact absorbed_self (members f mem)
      · intro f mem
        exact (has_merged made f.1).mpr (Or.inr (Fields.has_iff.mpr (List.mem_map_of_mem mem)))
  | @array here fixed items whole =>
    have kept : ∀ base, merge locations here base (.array fixed items) =
        .ok (.array fixed items) := by
      intro base
      cases base with
      | array =>
        rw [merge]
        simp only [whole]
      | _ => exact merge_override fun same => by cases same
    rw [kept] at h
    cases h
    exact kept _
  | @reconciled here idField fixed others found kind apart members ih =>
    obtain rfl : fixed = false := by simpa using kind
    by_cases arrays : ∃ fixed items, base = .array fixed items
    · obtain ⟨fixed, items, rfl⟩ := arrays
      obtain ⟨index, built, lookups⟩ := apart.exists_index
      obtain ⟨merged, pairs, kept, rfl, idMerge⟩ := merge_indexed found built lookups h
      exact absorbed_list found built lookups
        (absorbed_of_idMerge apart members (fun v mem b r => ih v mem) idMerge) idMerge.perm
    · have other : ∀ fixed items, base ≠ .array fixed items :=
        fun fixed items same => arrays ⟨fixed, items, same⟩
      have replaced : merge locations here base (.array false others) = .ok (.array false others) :=
        merge_onto_other other others
      rw [replaced] at h
      cases h
      exact absorbed_self (Settled.reconciled found kind apart members)

/-! ## Fixed arrays -/

theorem pliant_of_isScalar {v : Value} (scalar : v.isScalar = true) : v.pliant = v := by
  cases v with
  | array | object => cases scalar
  | _ => rfl

theorem keyOf?_pliant (idField : String) (v : Value) :
    keyOf? idField v.pliant = keyOf? idField v := by
  simp only [keyOf?, idOf?_pliant]
  cases idOf? idField v with
  | none => rfl
  | some id => simp [key_pliant]

theorem ToldApart.pliant {idField : String} {items : List Value}
    (apart : ToldApart idField items) : ToldApart idField (pliantItems items) := by
  rw [pliantItems_eq_map]
  constructor
  · intro w mem
    obtain ⟨v, inside, rfl⟩ := List.mem_map.mp mem
    obtain ⟨id, k, identified, scalar, key⟩ := apart.identified v inside
    exact ⟨id, k, by simp [idOf?_pliant, identified, pliant_of_isScalar scalar], scalar, key⟩
  · have keys : (items.map Value.pliant).map (keyOf? idField) = items.map (keyOf? idField) := by
      rw [List.map_map]
      exact List.map_congr_left fun v _ => keyOf?_pliant idField v
    rw [keys]
    exact apart.distinct

/-- An override is settled without reserve once its fixed arrays are lists. -/
theorem Settled.pliant {loose : Bool} {override : Value}
    (settled : Settled locations loose here override) :
    Settled locations false here override.pliant := by
  induction settled with
  | scalar single =>
    rw [pliant_of_isScalar single]
    exact Settled.scalar single
  | @object here fields distinct members ih =>
    rw [Value.pliant]
    apply Settled.object
    · rw [names_pliantFields]
      exact distinct
    · rw [pliantFields_eq_map]
      intro f mem
      obtain ⟨f, inside, rfl⟩ := List.mem_map.mp mem
      exact ih f inside
  | array whole => exact Settled.array whole
  | reconciled found kind apart members ih =>
    apply Settled.reconciled found (by simp) apart.pliant
    rw [pliantItems_eq_map]
    intro w mem
    obtain ⟨v, inside, rfl⟩ := List.mem_map.mp mem
    exact ih v inside

/-- **Merging again, fixed arrays included.** What a settled override makes of a base changes, when
it is laid over it once more, in the fixed arrays alone, and not at all where those that are
reconciled are lists. -/
theorem merge_again {loose : Bool} {override base r : Value}
    (settled : Settled locations loose here override)
    (h : merge locations here base override = .ok r) :
    ∃ r', merge locations here r override = .ok r' ∧ r'.pliant = r.pliant ∧
      (loose = false → r' = r) := by
  have first : merge locations here base.pliant override.pliant = .ok r.pliant := by
    rw [merge_pliant, h]
    rfl
  have second : merge locations here r.pliant override.pliant = .ok r.pliant :=
    absorbed_of_merge settled.pliant first
  rw [merge_pliant] at second
  cases made : merge locations here r override with
  | error f =>
    rw [made] at second
    cases second
  | ok r' =>
    rw [made] at second
    refine ⟨r', rfl, Except.ok.inj second, ?_⟩
    rintro rfl
    have same : merge locations here r override = .ok r := absorbed_of_merge settled h
    rw [made] at same
    exact Except.ok.inj same

/-- Where nothing is reconciled, JSON is settled. -/
theorem settled_of_isJson {override : Value} (json : override.isJson = true) :
    Settled [] false here override := by
  induction override using nested_induction generalizing here with
  | array fixed items => exact Settled.array rfl
  | object fields ih =>
    obtain ⟨distinct, members⟩ := isJson_object_iff.mp json
    exact Settled.object distinct fun f mem => ih f mem (members f mem)
  | _ => exact Settled.scalar rfl

end Translate

/-! ## Translating again -/

theorem translate_none (base override : Value) :
    translate base override none = (Translate.merge [] [] base override).mapError .fault := rfl

theorem translate_some {config : Config} {override shaped : Value} {locations : Locations}
    (reshaped : transform config override = .ok shaped)
    (located : config.locations [] = .ok locations) (base : Value) :
    translate base override (some config) =
      (Translate.merge locations [] base shaped).mapError .fault := by
  simp only [translate, reshaped, located, ok_bind]
  rfl

/-- **Translating again.** Without a configuration, what a document becomes when an override is
laid over it stays exactly as it is when the override is laid over it again. With a configuration
the same holds of any base if wherever an array is reconciled, the reshaped override has objects
with different identifiers there, none of which has members; and JSON can be laid over JSON. An
array of the reshaped override that is reconciled and fixed becomes a list, and nothing else
changes. -/
theorem translate_repeats :
    (∀ base override : Value, base.isJson = true → override.isJson = true →
      ∃ m, translate base override none = .ok m ∧ translate m override none = .ok m) ∧
    ∀ (config : Config) (override shaped : Value) (locations : Locations) (loose : Bool),
      transform config override = .ok shaped → config.locations [] = .ok locations →
      Translate.Settled locations loose [] shaped → ∀ base : Value,
        (∀ m, translate base override (some config) = .ok m →
          ∃ m', translate m override (some config) = .ok m' ∧ m'.pliant = m.pliant ∧
            (loose = false → m' = m)) ∧
        (base.isJson = true → shaped.isJson = true →
          ∃ m, translate base override (some config) = .ok m) := by
  refine ⟨?_, ?_⟩
  · intro base override json json'
    have part : override.isPart = true := isPart_iff.mpr (Or.inr json')
    obtain ⟨m, made⟩ := Translate.merge_total [] base json [] override part
    have settled : Translate.Settled [] false [] override := Translate.settled_of_isJson json'
    have again : Translate.merge [] [] m override = .ok m :=
      Translate.absorbed_of_merge settled made
    refine ⟨m, ?_, ?_⟩
    · rw [translate_none, mapError_eq_ok, made]
    · rw [translate_none, mapError_eq_ok, again]
  · intro config override shaped locations loose reshaped located settled base
    refine ⟨?_, ?_⟩
    · intro m made
      rw [translate_some reshaped located, mapError_eq_ok] at made
      obtain ⟨m', again, same, exact⟩ := Translate.merge_again settled made
      exact ⟨m', by rw [translate_some reshaped located, mapError_eq_ok, again], same, exact⟩
    · intro json json'
      have part : shaped.isPart = true := isPart_iff.mpr (Or.inr json')
      obtain ⟨m, made⟩ := Translate.merge_total locations base json [] shaped part
      exact ⟨m, by rw [translate_some reshaped located, mapError_eq_ok, made]⟩

/-- The row that is found by its identifier keeps its place, and the new row follows it. The other
rows of the base are gone after the first translation. -/
theorem translate_repeats_rows :
    let rows : Target := ⟨⟨[.field "rows"], "rows"⟩, rfl⟩
    let config : Config := .rules [.reconcile rows (.rules [.merge ⟨[], ""⟩]) "id"]
    let override : Value := .object [("rows", .list
      [.object [("id", .int 2), ("v", .string "b")], .object [("id", .int 1), ("v", .string "a")]])]
    let base : Value := .object [("rows", .list
      [.object [("w", .null), ("id", .int 1)], .object [("w", .null)], .object [("id", .int 1)]])]
    let m : Value := .object [("rows", .list
      [.object [("w", .null), ("id", .int 1), ("v", .string "a")],
        .object [("id", .int 2), ("v", .string "b")]])]
    transform config override = .ok override ∧ config.locations [] = .ok [(["rows"], "id")] ∧
      Translate.Settled [(["rows"], "id")] false [] override ∧
      translate base override (some config) = .ok m ∧
      translate m override (some config) = .ok m := by
  intro rows config override base m
  have reshaped : transform config override = .ok override := by rfl
  have located : config.locations [] = .ok [(["rows"], "id")] := by rfl
  have single : ∀ {here} {n : Int} {s : String}, Translate.Settled [(["rows"], "id")] false here
      (.object [("id", .int n), ("v", .string s)]) := by
    intro here n s
    apply Translate.Settled.object (by simp [Fields.names])
    intro f mem
    rcases List.mem_pair.mp mem with rfl | rfl <;> exact Translate.Settled.scalar rfl
  have settled : Translate.Settled [(["rows"], "id")] false [] override := by
    apply Translate.Settled.object (by decide)
    intro f mem
    rw [List.mem_singleton.mp mem]
    apply Translate.Settled.reconciled rfl (fun kind => kind)
    · constructor
      · intro v mem
        rcases List.mem_pair.mp mem with rfl | rfl <;> exact ⟨_, _, rfl, rfl, rfl⟩
      · decide
    · intro v mem
      rcases List.mem_pair.mp mem with rfl | rfl <;> exact single
  have made : translate base override (some config) = .ok m := by rfl
  obtain ⟨m', again, _, same⟩ :=
    (translate_repeats.2 config override override _ false reshaped located settled base).1 m made
  rw [same rfl] at again
  exact ⟨reshaped, located, settled, made, again⟩

end Recast
