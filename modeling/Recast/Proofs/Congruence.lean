import Recast.Document
import Recast.Proofs.AlikeRuns
import Recast.Proofs.Containment
import Recast.Proofs.Overlay

/-!
Strict equality as a congruence. Of documents that are alike, every operation makes results that
are alike, or it fails on them with the same failure (`respects_spelling`). Laying alike overrides
over alike bases is the one operation that meets two pairs at once (`merge_alike`): its fields may
come in another order, and its identifiers be spelled differently, but the keys of identifiers are
the same.
-/

namespace Recast

open Value

namespace Translate

/-! ## Identifiers -/

theorem idOf?_alike (idField : String) {a b : Value} (h : Alike a b) :
    (idOf? idField a = none ∧ idOf? idField b = none) ∨
      ∃ x y, idOf? idField a = some x ∧ idOf? idField b = some y ∧ Alike x y := by
  have kind := h.kind
  cases a with
  | object fields =>
    obtain ⟨others, rfl⟩ := h.exists_object
    simp only [idOf?, ← h.has]
    cases found : Fields.has idField fields with
    | true => exact Or.inr ⟨_, _, rfl, rfl, h.get found⟩
    | false => exact Or.inl ⟨rfl, rfl⟩
  | _ =>
    refine Or.inl ⟨rfl, ?_⟩
    cases b <;> first | rfl | cases kind

theorem key_alike {a b : Value} (h : Alike a b) : a.key = b.key := by
  rw [key_eq_normal a h.json, key_eq_normal b h.json', h.normal]

/-- Identifiers that are alike are indexed under the same keys. -/
theorem idIndex_alike {idField : String} {items others : List Value}
    (members : List.Forall₂ Alike items others) (n : Nat) :
    idIndex idField n items = idIndex idField n others := by
  induction members generalizing n with
  | nil => rfl
  | cons first _ ih =>
    rcases idOf?_alike idField first with ⟨lacks, lacks'⟩ | ⟨x, y, has, has', ids⟩
    · simp only [idIndex, lacks, lacks', ih]
    · simp only [idIndex, has, has', key_alike ids, ih]

theorem unmatched_alike {items others : List Value} (members : List.Forall₂ Alike items others)
    (matched : List Nat) (n : Nat) :
    List.Forall₂ Alike (unmatched matched n items) (unmatched matched n others) := by
  induction members generalizing n with
  | nil => exact List.Forall₂.nil
  | cons first _ ih =>
    unfold unmatched
    split
    · exact ih (n + 1)
    · exact List.Forall₂.cons first (ih (n + 1))

/-! ## Merging -/

/-- Merging treats a base and all that is alike to it alike. -/
def Regarded (locations : Locations) (base : Value) : Prop :=
  ∀ base' override override' here, Alike base base' → Alike override override' →
    Agree Alike (merge locations here base override) (merge locations here base' override')

section
variable {locations : Locations} {here : Location}

theorem mergeItems_alike {items items' : List Value} (members : List.Forall₂ Alike items items')
    (each : ∀ v ∈ items, Regarded locations v) {others others' : List Value}
    (overrides : List.Forall₂ Alike others others') {idField : String} {index : List (Key × Nat)}
    (inside : ∀ k j, index.lookup k = some j → (item j others).isAbsent = false)
    (matched : List Nat) :
    Agree (fun x y => List.Forall₂ Alike x.1 y.1 ∧ x.2 = y.2)
      (mergeItems locations here idField index others matched items)
      (mergeItems locations here idField index others' matched items') := by
  induction members generalizing matched with
  | nil => exact Agree.ok ⟨List.Forall₂.nil, rfl⟩
  | @cons element element' _ _ first _ ih =>
    obtain ⟨regarded, later⟩ := List.forall_mem_cons.mp each
    have rest := ih later
    rcases idOf?_alike idField first with ⟨lacks, lacks'⟩ | ⟨x, y, has, has', ids⟩
    · simp only [mergeItems, lacks, lacks']
      exact rest matched
    · simp only [mergeItems, has, has', ← key_alike ids, key_eq_normal x ids.json, ok_bind]
      split
      · exact rest matched
      · rename_i position found
        split
        · exact rest matched
        · have override : Alike (item position others) (item position others') :=
            (partsAlike_item overrides position).alike (inside _ _ found)
          apply (regarded element' _ _ (here ++ [Location.element]) first override).bind
          intro merged merged' alike
          apply (rest (position :: matched)).bind
          rintro ⟨tail, used⟩ ⟨tail', used'⟩ ⟨alikes, same⟩
          exact Agree.ok ⟨List.Forall₂.cons alike alikes, same⟩

theorem merge_objects_alike {fields fields' others others' : Fields}
    (each : ∀ f ∈ fields, Regarded locations f.2)
    (h : Alike (object fields) (object fields')) (above : Alike (object others) (object others')) :
    Agree Alike (merge locations here (object fields) (object others))
      (merge locations here (object fields') (object others')) := by
  obtain ⟨r, made⟩ := merge_total locations (object fields) h.json here (object others)
    (isPart_of_isJson above.json)
  obtain ⟨r', made'⟩ := merge_total locations (object fields') h.json' here (object others')
    (isPart_of_isJson above.json')
  obtain ⟨merged, fieldwise, rfl⟩ := merge_objects_ok made
  obtain ⟨merged', fieldwise', rfl⟩ := merge_objects_ok made'
  rw [made, made']
  apply Agree.ok
  apply Alike.ofFields
  · exact nodup_merged fieldwise (isJson_object_iff.mp h.json).1 (isJson_object_iff.mp above.json).1
  · exact nodup_merged fieldwise' (isJson_object_iff.mp h.json').1
      (isJson_object_iff.mp above.json').1
  · intro name
    rw [Bool.eq_iff_iff, has_merged fieldwise, has_merged fieldwise', h.has, above.has]
  · intro name found
    cases overridden : Fields.has name others with
    | true =>
      have overridden' : Fields.has name others' = true := by rw [← above.has, overridden]
      have laid := merge_select made overridden
      have laid' := merge_select made' overridden'
      cases based : Fields.has name fields with
      | true =>
        have agree := each _ (Fields.mem_of_has based) _ _ _ (here ++ [name]) (h.get based)
          (above.get overridden)
        simp only [select] at laid laid'
        rw [laid, laid'] at agree
        cases agree with
        | ok alike => exact alike
      | false =>
        have based' : Fields.has name fields' = false := by rw [← h.has, based]
        simp only [select, Fields.get_of_not_has based, Fields.get_of_not_has based',
          merge_absent, Except.ok.injEq] at laid laid'
        rw [← laid, ← laid']
        exact above.get overridden
    | false =>
      have overridden' : Fields.has name others' = false := by rw [← above.has, overridden]
      have kept := select_merge made overridden
      have kept' := select_merge made' overridden'
      simp only [select] at kept kept'
      rw [kept, kept']
      have based := (has_merged fieldwise name).mp found
      exact h.get (based.resolve_right (by simp [overridden]))

theorem merge_arrays_alike {fixed fixed' : Bool} {items items' others others' : List Value}
    (each : ∀ v ∈ items, Regarded locations v) (members : List.Forall₂ Alike items items')
    (above : Alike (array fixed' others) (array fixed' others')) :
    Agree Alike (merge locations here (array fixed items) (array fixed' others))
      (merge locations here (array fixed items') (array fixed' others')) := by
  obtain ⟨_, same, overrides⟩ := above.exists_array
  cases same
  rw [merge, merge]
  cases locations.idField? here with
  | none => exact Agree.ok above
  | some idField =>
    obtain ⟨index, built, found⟩ := lookup_idIndex idField 0 (all_array_iff.mp above.json).2
    have inside : ∀ k j, index.lookup k = some j → (item j others).isAbsent = false := by
      intro k j position
      rw [found] at position
      obtain ⟨i, first, rfl⟩ := Option.map_eq_some_iff.mp position
      have keyed := ((findIdx?_iff_item rfl).mp first).1
      rw [Nat.zero_add]
      cases absent : item i others with
      | absent =>
        rw [absent] at keyed
        cases keyed
      | _ => rfl
    simp only [← idIndex_alike overrides, built, ok_bind]
    apply (mergeItems_alike members each overrides inside []).bind
    rintro ⟨merged, matched⟩ ⟨merged', matched'⟩ ⟨alikes, same⟩
    cases same
    exact Agree.ok (Alike.ofItems (List.rel_append alikes (unmatched_alike overrides matched 0)))

end

/-- **Merging.** Alike overrides that are laid over alike bases make results that are alike. -/
theorem merge_alike (locations : Locations) (base : Value) : Regarded locations base := by
  have other : ∀ base base' override override' here, Alike base base' → Alike override override' →
      (base.kind? = override.kind? → base.kind? ≠ some .object ∧ base.kind? ≠ some .array) →
      Agree Alike (merge locations here base override) (merge locations here base' override') := by
    intro base base' override override' here h above differ
    rw [merge_override differ, merge_override (h.kind ▸ above.kind ▸ differ)]
    exact Agree.ok above
  induction base using nested_induction with
  | object fields each =>
    intro base' override override' here h above
    cases override with
    | object others =>
      obtain ⟨fields', rfl⟩ := h.exists_object
      obtain ⟨others', rfl⟩ := above.exists_object
      exact merge_objects_alike each h above
    | _ => exact other _ _ _ _ here h above fun same => by cases same
  | array fixed items each =>
    intro base' override override' here h above
    cases override with
    | array fixed' others =>
      obtain ⟨items', rfl, members⟩ := h.exists_array
      obtain ⟨others', rfl, _⟩ := above.exists_array
      exact merge_arrays_alike each members above
    | _ => exact other _ _ _ _ here h above fun same => by cases same
  | _ =>
    intro base' override override' here h above
    exact other _ _ _ _ here h above fun _ => ⟨by simp [kind?], by simp [kind?]⟩

end Translate

/-! ## Translating and filtering -/

section
variable {a b : Value}

theorem translate_alike (h : Alike a b) {override override' : Value}
    (above : Alike override override') (config? : Option Config)
    (plain : ∀ config, config? = some config → config.Every Rule.Plain) :
    Agree Alike (translate a override config?) (translate b override' config?) := by
  have merged : ∀ locations shaped shaped', Alike shaped shaped' →
      Agree Alike ((Translate.merge locations [] a shaped).mapError Failure.fault)
        ((Translate.merge locations [] b shaped').mapError Failure.fault) :=
    fun locations _ _ shapes =>
      (Translate.merge_alike locations a b _ _ [] h shapes).mapError Failure.fault
  cases config? with
  | none => exact merged [] override override' above
  | some config =>
    unfold translate
    simp only
    apply (transform_alike (plain config rfl) above).bind
    intro shaped shaped' shapes
    cases config.locations [] with
    | error e => exact Agree.error e
    | ok locations => exact merged locations shaped shaped' shapes

theorem names_keep (names : List String) (fields : Fields) :
    (Fields.names (fields.keep names)).Sublist (Fields.names fields) :=
  List.filter_sublist.map _

theorem has_keep_iff {names : List String} {fields : Fields} {name : String} :
    Fields.has name (fields.keep names) = true ↔ name ∈ names ∧ Fields.has name fields = true := by
  simp [Fields.has, Fields.keep, and_left_comm]

theorem only_alike (h : Alike a b) (selection : Value) :
    Agree Alike (only a selection) (only b selection) := by
  have kind := h.kind
  cases a with
  | object fields =>
    obtain ⟨others, rfl⟩ := h.exists_object
    unfold only
    cases Projection.names selection with
    | error e => exact Agree.error e
    | ok names =>
      apply Agree.ok
      apply Alike.ofFields
      · exact (names_keep names fields).nodup (isJson_object_iff.mp h.json).1
      · exact (names_keep names others).nodup (isJson_object_iff.mp h.json').1
      · intro name
        rw [Bool.eq_iff_iff, has_keep_iff, has_keep_iff, h.has]
      · intro name found
        obtain ⟨kept, found⟩ := has_keep_iff.mp found
        rw [Fields.get_keep, Fields.get_keep, if_pos (by simpa using kept),
          if_pos (by simpa using kept)]
        exact h.get found
  | _ =>
    have described := h.describe
    cases b with
    | object => cases kind
    | _ =>
      simp only [only, described]
      exact Agree.error _

end

/-! ## Containing -/

section
variable {a b expected : Value}

theorem strictEqItems_ok {items others : List Value} (length : items.length = others.length)
    (h : strictEqItems items others = .ok true) :
    List.Forall₂ (fun v w => strictEq v w = .ok true) items others := by
  induction items generalizing others with
  | nil =>
    cases others with
    | nil => exact List.Forall₂.nil
    | cons => cases length
  | cons v rest ih =>
    cases others with
    | nil => cases length
    | cons w others =>
      rw [strictEqItems] at h
      obtain ⟨same, compared, h⟩ := bind_eq_ok.mp h
      cases same with
      | false => cases h
      | true => exact List.Forall₂.cons compared (ih (Nat.succ.inj length) h)

theorem strictEqFields_ok {fields others : Fields} (h : strictEqFields fields others = .ok true) :
    ∀ f ∈ fields, strictEq f.2 (Fields.get f.1 others) = .ok true := by
  induction fields with
  | nil => simp
  | cons field rest ih =>
    obtain ⟨name, v⟩ := field
    rw [strictEqFields] at h
    obtain ⟨same, compared, h⟩ := bind_eq_ok.mp h
    cases same with
    | false => cases h
    | true => exact List.forall_mem_cons.mpr ⟨compared, ih h⟩

/-- Only JSON is strictly equal to JSON. -/
theorem isJson_of_strictEq (json : a.isJson = true) (h : strictEq a b = .ok true) :
    b.isJson = true := by
  induction a using nested_induction generalizing b with
  | absent | foreign => cases json
  | array fixed items ih =>
    cases b with
    | array fixed' others =>
      rw [strictEq] at h
      split at h
      · rename_i length
        have members : ∀ v ∈ items, ∀ w, strictEq v w = .ok true → w.isJson = true :=
          fun v mem w equal => ih v mem ((all_array_iff.mp json).2 v mem) equal
        have pairs := (List.forall₂_and_left items others).mpr ⟨members, strictEqItems_ok length h⟩
        have right := (List.forall₂_and_left others items).mp
          (pairs.flip.imp fun w v h => ⟨h.1 w h.2, h⟩)
        exact all_array_iff.mpr ⟨rfl, right.1⟩
      · cases h
    | _ => cases h
  | object fields ih =>
    cases b with
    | object others =>
      rw [strictEq] at h
      split at h
      · rename_i settled
        obtain ⟨length, has⟩ : fields.length = others.length ∧
            ∀ f ∈ fields, Fields.has f.1 others = true := by simpa using settled
        obtain ⟨distinct, json⟩ := isJson_object_iff.mp json
        have subset : Fields.names fields ⊆ Fields.names others := by
          intro name mem
          obtain ⟨f, inside, rfl⟩ := List.mem_map.mp mem
          exact Fields.has_iff.mp (has f inside)
        have names : (Fields.names fields).Perm (Fields.names others) :=
          (List.subperm_of_subset distinct subset).perm_of_length_le
            (by simp [Fields.names, length])
        have distinct' := names.nodup_iff.mp distinct
        refine isJson_object_iff.mpr ⟨distinct', fun g mem => ?_⟩
        have found : Fields.has g.1 fields = true :=
          Fields.has_iff.mpr (names.mem_iff.mpr (List.mem_map_of_mem mem))
        have inside := Fields.mem_of_has found
        have equal := strictEqFields_ok h _ inside
        rw [Fields.get_of_mem distinct' mem] at equal
        exact ih _ inside (json _ inside) equal
      · cases h
    | _ => cases h
  | null | bool | int | double | string =>
    cases b with
    | absent | foreign => cases h
    | array | object => cases h
    | _ => rfl

/-- The items of an array; other values have none. -/
def Value.items : Value → List Value
  | .array _ items => items
  | _ => []

theorem isJson_items (json : a.isJson = true) : ∀ v ∈ a.items, v.isJson = true := by
  cases a with
  | array fixed items => exact (all_array_iff.mp json).2
  | _ => exact fun v mem => absurd mem List.not_mem_nil

theorem items_alike (h : Alike a b) : List.Forall₂ Alike a.items b.items := by
  have kind := h.kind
  cases a with
  | array fixed items =>
    obtain ⟨others, rfl, members⟩ := h.exists_array
    exact members
  | _ =>
    cases b with
    | array => cases kind
    | _ => exact List.Forall₂.nil

theorem holds_eq (present : a.isAbsent = false) : a.holds expected =
    strictEq a expected >>= fun same =>
      if same then .ok true else anyEquals expected a.items := by
  cases a with
  | absent => cases present
  | _ => rfl

theorem strictEq_alike (h : Alike a b) (json : expected.isJson = true) :
    strictEq a expected = strictEq b expected := by
  rw [strictEq_eq a expected h.json json, strictEq_eq b expected h.json' json, h.normal, h.free,
    h.free']

theorem anyEquals_alike {items others : List Value} (members : List.Forall₂ Alike items others)
    (json : expected.isJson = true) : anyEquals expected items = anyEquals expected others := by
  induction members with
  | nil => rfl
  | cons first _ ih => rw [anyEquals, anyEquals, strictEq_alike first json, ih]

theorem holds_alike (h : Alike a b) (json : expected.isJson = true) :
    a.holds expected = b.holds expected := by
  rw [holds_eq h.present, holds_eq h.symm.present, strictEq_alike h json,
    anyEquals_alike (items_alike h) json]

/-- JSON holds nothing but JSON. -/
theorem isJson_of_holds (json : a.isJson = true) (h : a.holds expected = .ok true) :
    expected.isJson = true := by
  have present : a.isAbsent = false := by
    cases a with
    | absent => cases json
    | _ => rfl
  rw [holds_eq present] at h
  obtain ⟨same, compared, h⟩ := bind_eq_ok.mp h
  cases same with
  | true => exact isJson_of_strictEq json compared
  | false =>
    obtain ⟨before, v, after, split, equal, _⟩ := anyEquals_eq_true_iff.mp h
    exact isJson_of_strictEq (isJson_items json v (by simp [split])) equal

theorem contains_alike (h : Alike a b) (path : Path) (expected : Value) :
    a.contains path expected = b.contains path expected := by
  have iff : ∀ v : Value, v.contains path expected = true ↔
      (v.resolve path.elements).holds expected = .ok true := by
    intro v
    unfold contains
    cases (v.resolve path.elements).holds expected <;> simp
  have found : PartsAlike (a.resolve path.elements) (b.resolve path.elements) :=
    PartsAlike.resolve (Or.inr h) _
  rw [Bool.eq_iff_iff, iff, iff]
  rcases found with ⟨absent, absent'⟩ | found
  · rw [absent, absent']
  · -- What is no JSON is held by neither, and comparing JSON settles alike for both.
    constructor
    · intro held
      rwa [← holds_alike found (isJson_of_holds found.json held)]
    · intro held
      rwa [holds_alike found (isJson_of_holds found.json' held)]

end

/-! ## Documents -/

/-- Documents that differ in spelling at most. -/
def Document.Alike (d e : Document) : Prop := Value.Alike d.value e.value

namespace Document

theorem ofValue_alike {x y : Outcome Value} (h : Agree Value.Alike x y) :
    Agree Document.Alike (x >>= ofValue) (y >>= ofValue) := by
  apply h.bind
  intro a b alike
  have known : a.kind?.isSome = true := by
    rw [kind?_eq_normal (isPart_iff.mpr (Or.inr alike.json))]
    rfl
  have known' : b.kind?.isSome = true := by rw [← alike.kind, known]
  rw [ofValue, ofValue, dif_pos known, dif_pos known']
  exact Agree.ok alike

theorem navigate_alike {d e : Document} (h : d.Alike e) (path : Path) :
    ∃ x y, d.navigate path = .ok x ∧ e.navigate path = .ok y ∧ PartsAlike x.value y.value := by
  have found : PartsAlike (d.value.resolve path.elements) (e.value.resolve path.elements) :=
    PartsAlike.resolve (Or.inr h) _
  have known : (d.value.resolve path.elements).kind?.isSome = true := by
    rw [kind?_eq_normal (isPart_resolve h.json _)]
    rfl
  have known' : (e.value.resolve path.elements).kind?.isSome = true := by
    rw [← found.kind, known]
  refine ⟨⟨_, known⟩, ⟨_, known'⟩, ?_, ?_, found⟩
  · rw [navigate, ofValue, dif_pos known]
  · rw [navigate, ofValue, dif_pos known']

/-- **Spelling does not matter.** Let two documents differ in spelling at most. Then lookups find
nothing in both, or documents that differ in spelling at most; questions have the same answers; and
filtering, transforming and translating both succeed, with documents that differ in spelling at
most, or both fail with the same failure. The configurations may use the validators and mappers of
the library only, and the overrides too may differ in spelling. -/
theorem respects_spelling (d e : Document) (h : d.Alike e) :
    (∀ path, ∃ x y, d.navigate path = .ok x ∧ e.navigate path = .ok y ∧
      PartsAlike x.value y.value) ∧
    (∀ path, d.exists? path = e.exists? path ∧ d.isNull path = e.isNull path ∧
      ∀ expected, d.contains path expected = e.contains path expected) ∧
    (∀ selection, Agree Document.Alike (d.only selection) (e.only selection)) ∧
    (∀ config : Config, config.Every Rule.Plain →
      Agree Document.Alike (d.transform config) (e.transform config)) ∧
    ∀ override override' config?, Value.Alike override override' →
      (∀ config, config? = some config → config.Every Rule.Plain) →
      Agree Document.Alike (d.translate override config?) (e.translate override' config?) := by
  have found : ∀ path : Path,
      PartsAlike (d.value.resolve path.elements) (e.value.resolve path.elements) :=
    fun path => PartsAlike.resolve (Or.inr h) _
  refine ⟨navigate_alike h, ?_, ?_, ?_, ?_⟩
  · intro path
    refine ⟨?_, (found path).isNull, contains_alike h path⟩
    rw [exists?, exists?, (found path).isAbsent]
  · exact fun selection => ofValue_alike (only_alike h selection)
  · exact fun config plain => ofValue_alike (transform_alike plain h)
  · exact fun override override' config? above plain =>
      ofValue_alike (translate_alike h above config? plain)

theorem respects_spelling_rows :
    let row := Value.object [("id", .int 1), ("n", .int 2)]
    let row' := Value.object [("n", .double (.finite false 1024 0)), ("id", .int 1)]
    let d : Document := ⟨.object [("rows", .list [row])], rfl⟩
    let e : Document := ⟨.object [("rows", .list [row'])], rfl⟩
    let override := Value.object
      [("rows", .list [.object [("id", .double (.finite false 1023 0))]])]
    let override' := Value.object [("rows", .list [.object [("id", .int 1)]])]
    let config := Config.rules [.reconcile ⟨⟨[.field "rows"], "rows"⟩, rfl⟩
      (.rules [.merge ⟨[], ""⟩]) "id"]
    d.Alike e ∧ Value.Alike override override' ∧ config.Every Rule.Plain ∧
      Agree Document.Alike (d.translate override (some config))
        (e.translate override' (some config)) := by
  intro row row' d e override override' config
  have alike : d.Alike e := Value.Alike.of_isPliant rfl rfl rfl rfl rfl rfl rfl
  have above : Value.Alike override override' := Value.Alike.of_isPliant rfl rfl rfl rfl rfl rfl rfl
  have plain : config.Every Rule.Plain :=
    Config.every_cons.mpr ⟨trivial, Config.every_cons.mpr
      ⟨trivial, Config.every_nil, Config.every_nil⟩, Config.every_nil⟩
  refine ⟨alike, above, plain, ?_⟩
  exact (respects_spelling d e alike).2.2.2.2 override override' (some config) above
    fun _ same => Option.some.inj same ▸ plain

end Document

end Recast
