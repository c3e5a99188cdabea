import Recast.Projection
import Recast.Proofs.FieldOrder
import Recast.Proofs.Normal
import Recast.Proofs.Rendering

/-!
Fields that are kept and fields that are copied. A rule that copies several fields of an object by
their names makes an object of the same fields as keeping those names does. Keeping has them in the
order of the object, and copying in the order in which the names are first listed
(`Fields.pick`). Main statement: `copied_as_kept`.
-/

namespace Recast

/-! ## Fields by name -/

namespace Fields

/-- The fields that have the names, in the order of the names. -/
def pick (names : List String) (fields : Fields) : Fields :=
  (names.filter (has · fields)).map fun name => (name, get name fields)

theorem pick_cons (name : String) (rest : List String) (fields : Fields) :
    pick (name :: rest) fields =
      if has name fields then (name, get name fields) :: pick rest fields else pick rest fields := by
  rw [pick, List.filter_cons]
  split <;> rfl

theorem names_pick (names : List String) (fields : Fields) :
    Fields.names (pick names fields) = names.filter (has · fields) := by
  rw [pick, Fields.names, List.map_map]
  exact List.map_id _

theorem mem_pick_iff {names : List String} {fields : Fields}
    (distinct : (Fields.names fields).Nodup) {f : String × Value} :
    f ∈ pick names fields ↔ f.1 ∈ names ∧ f ∈ fields := by
  simp only [pick, List.mem_map, List.mem_filter]
  constructor
  · rintro ⟨name, ⟨listed, there⟩, rfl⟩
    exact ⟨listed, mem_of_has there⟩
  · rintro ⟨listed, mem⟩
    refine ⟨f.1, ⟨listed, has_iff.mpr (List.mem_map_of_mem mem)⟩, ?_⟩
    rw [get_of_mem distinct mem]

/-- Picked fields are the kept ones in another order. -/
theorem pick_perm_keep {names : List String} {fields : Fields}
    (distinct : (Fields.names fields).Nodup) :
    (pick names.eraseDups fields).Perm (keep names fields) := by
  have picked : (pick names.eraseDups fields).Nodup := by
    apply List.Nodup.of_map (·.1)
    have names_eq := names_pick names.eraseDups fields
    rw [Fields.names] at names_eq
    rw [names_eq]
    exact (nodup_eraseDups names).filter _
  have kept : (keep names fields).Nodup := (List.Nodup.of_map _ distinct).filter _
  refine (List.perm_ext_iff_of_nodup picked kept).mpr fun f => ?_
  rw [mem_pick_iff distinct, List.mem_eraseDups, keep, List.mem_filter, List.contains_eq_mem,
    decide_eq_true_eq, and_comm]

/-- Keeping names and then others keeps the names that are among both. -/
theorem keep_keep {first second both : List String}
    (among : ∀ name, name ∈ both ↔ name ∈ first ∧ name ∈ second) (fields : Fields) :
    keep second (keep first fields) = keep both fields := by
  rw [keep, keep, List.filter_filter]
  refine List.filter_congr fun f _ => ?_
  rw [Bool.eq_iff_iff, Bool.and_eq_true]
  simp only [List.contains_eq_mem, decide_eq_true_eq, among, and_comm]

end Fields

/-! ## Copying by name -/

/-- The path to the field of a name. -/
def Path.ofName (name : String) : Path := ⟨[.field name], name⟩

theorem ofValue_name {name : String} (plain : (Element.field name).Expressible) :
    Path.ofValue (.string name) = .ok (.ofName name) :=
  read_name plain

theorem mapM_ofValue_names {names : List String}
    (plain : ∀ name ∈ names, (Element.field name).Expressible) :
    (names.map Value.string).mapM Path.ofValue = .ok (names.map Path.ofName) := by
  induction names with
  | nil => rfl
  | cons name rest ih =>
    obtain ⟨first, later⟩ := List.forall_mem_cons.mp plain
    rw [List.map_cons, List.mapM_cons, ofValue_name first, ih later]
    rfl

/-- Dropping the paths that occur again leaves those of the names without repeats. -/
theorem distinct_ofName (names : List String) :
    (names.map Path.ofName).foldl (fun kept p => if kept.contains p then kept else kept ++ [p]) [] =
      names.eraseDups.map Path.ofName := by
  induction names using List.reverseRecOn with
  | nil => rfl
  | append_singleton names name ih =>
    have listed : (names.eraseDups.map Path.ofName).contains (Path.ofName name) = true ↔
        name ∈ names := by
      rw [List.contains_iff_mem, List.mem_map, ← List.mem_eraseDups (a := name)]
      constructor
      · rintro ⟨other, mem, same⟩
        cases same
        exact mem
      · exact fun mem => ⟨name, mem, rfl⟩
    rw [List.map_append, List.foldl_append, ih, eraseDups_concat, List.map_singleton,
      List.foldl_cons, List.foldl_nil]
    by_cases mem : name ∈ names
    · rw [if_pos (listed.mpr mem), if_pos mem]
    · rw [if_neg (mt listed.mp mem), if_neg mem, List.map_append, List.map_singleton]

theorem copyFields_names {names : List String} (filled : names ≠ [])
    (plain : ∀ name ∈ names, (Element.field name).Expressible) :
    Rule.copyFields (names.map .string) = .ok (.several (names.eraseDups.map Path.ofName)) := by
  obtain ⟨name, mem⟩ := List.exists_mem_of_ne_nil names filled
  have some_left : (names.eraseDups.map Path.ofName).isEmpty = false := by
    rw [Bool.eq_false_iff, ne_eq, List.isEmpty_iff]
    exact List.ne_nil_of_mem (List.mem_map_of_mem (List.mem_eraseDups.mpr mem))
  simp only [Rule.copyFields, mapM_ofValue_names plain, ok_bind, distinct_ofName, some_left]
  rfl

/-- A rule that copies the fields of names sets those that there are. -/
theorem edits_names {fields : Fields} (present : ∀ f ∈ fields, f.2.isAbsent = false)
    (names : List String) :
    (Rule.several (names.map Path.ofName)).edits (.object fields) =
      .ok ((fields.pick names).map Edit.setting) := by
  have targets : ∃ copies, ((names.map Path.ofName).mapM fun p => FieldCopy.ofPaths p p) =
      .ok copies := by
    induction names with
    | nil => exact ⟨[], rfl⟩
    | cons name rest ih =>
      obtain ⟨copies, made⟩ := ih
      rw [List.map_cons, List.mapM_cons, made]
      exact ⟨_, rfl⟩
  obtain ⟨copies, made⟩ := targets
  simp only [Rule.edits, made, ok_bind, pure_eq, Except.ok.injEq]
  clear made
  induction names with
  | nil => rfl
  | cons name rest ih =>
    rw [List.map_cons, List.flatMap_cons, ih, Fields.pick_cons]
    have found : (Value.object fields).resolve (Path.ofName name).elements = Fields.get name fields :=
      rfl
    rw [Edit.copying, found]
    cases there : Fields.has name fields with
    | true =>
      rw [if_neg (by simp [present _ (Fields.mem_of_has there)])]
      rfl
    | false =>
      rw [Fields.get_of_not_has there]
      rfl

theorem transform_names {fields : Fields} (present : ∀ f ∈ fields, f.2.isAbsent = false)
    {names : List String} (once : names.Nodup) :
    transform (.rules [.several (names.map Path.ofName)]) (.object fields) =
      .ok (.object (fields.pick names)) := by
  have distinct : (Fields.names (fields.pick names)).Nodup := by
    rw [Fields.names_pick]
    exact once.filter _
  apply (runRules_ok_iff rfl).mpr
  refine ⟨[_], .cons (edits_names present names) .nil, ?_⟩
  rw [List.flatten_singleton, applyAll_setting, Fields.setAll_of_nodup distinct]
  rfl

/-! ## Keeping and copying -/

theorem only_of_names {fields : Fields} {selection : Value} {names : List String}
    (named : Projection.names selection = .ok names) :
    only (.object fields) selection = .ok (.object (fields.keep names)) := by
  rw [only, named]
  rfl

theorem names_list (names : List String) :
    Projection.names (.list (names.map .string)) = .ok names := by
  have fit : (names.map Value.string).findSome? Projection.unfit? = none := by
    rw [List.findSome?_eq_none_iff]
    intro v mem
    obtain ⟨name, _, rfl⟩ := List.mem_map.mp mem
    rfl
  rw [Value.list, Projection.names, Projection.ofItems, fit, List.filterMap_map]
  exact congrArg Except.ok List.filterMap_some

/-- **Copying fields is keeping them.** Take an object and names that path notation spells as they
are. A rule can be made that copies the fields of these names, and it succeeds. What it makes has
the fields of the object whose names are among these, with their values, just as keeping the names
has; it has them in the order in which the names are first listed, and keeping has them in the order
of the object. And keeping names of what was kept for others is keeping those that are among both,
in whatever way the names are given. -/
theorem copied_as_kept (fields : Fields) :
    ((Value.object fields).isJson = true → ∀ names : List String, names ≠ [] →
      (∀ name ∈ names, (Element.field name).Expressible) →
      ∃ rule copied kept,
        Rule.copyFields (names.map .string) = .ok rule ∧
        transform (.rules [rule]) (.object fields) = .ok (.object copied) ∧
        only (.object fields) (.list (names.map .string)) = .ok (.object kept) ∧
        copied.Perm kept ∧
        Fields.names copied = names.eraseDups.filter (Fields.has · fields) ∧
        kept.Sublist fields ∧ ∀ f ∈ fields, f ∈ kept ↔ f.1 ∈ names) ∧
    ∀ (first second both : Value) (ns ms os : List String),
      Projection.names first = .ok ns → Projection.names second = .ok ms →
      Projection.names both = .ok os → (∀ name, name ∈ os ↔ name ∈ ns ∧ name ∈ ms) →
      (only (.object fields) first >>= fun kept => only kept second) =
        only (.object fields) both := by
  constructor
  · intro json names filled plain
    obtain ⟨distinct, parts⟩ := Value.isJson_object_iff.mp json
    have present : ∀ f ∈ fields, f.2.isAbsent = false := by
      intro f mem
      have part := parts f mem
      cases value : f.2 with
      | absent =>
        rw [value] at part
        cases part
      | _ => rfl
    refine ⟨_, _, _, copyFields_names filled plain,
      transform_names present (nodup_eraseDups names), only_of_names (names_list names),
      Fields.pick_perm_keep distinct, Fields.names_pick _ _, List.filter_sublist, ?_⟩
    intro f mem
    simp [Fields.keep, mem]
  · intro first second both ns ms os named named' named'' among
    rw [only_of_names named, only_of_names named'', ok_bind, only_of_names named',
      Fields.keep_keep among]

/-- A name that is listed twice is copied once, one that the object lacks is left out, and the
fields come in the order of the list. -/
theorem copied_as_kept_columns :
    let fields : Fields := [("a", .int 1), ("b", .null), ("c", .list [.string "x"])]
    let names : List String := ["c", "d", "a", "c"]
    let all : Value := .list (names.map .string)
    let other : Value := .object [("c", .null), ("e", .null)]
    (Value.object fields).isJson = true ∧ names ≠ [] ∧
      (∀ name ∈ names, (Element.field name).Expressible) ∧
      (∃ rule copied kept,
        Rule.copyFields (names.map .string) = .ok rule ∧
        transform (.rules [rule]) (.object fields) = .ok (.object copied) ∧
        only (.object fields) all = .ok (.object kept) ∧ copied.Perm kept ∧
        Fields.names copied = ["c", "a"] ∧ Fields.names kept = ["a", "c"]) ∧
      Projection.names all = .ok names ∧ Projection.names other = .ok ["c", "e"] ∧
      (only (.object fields) all >>= fun kept => only kept other) =
        only (.object fields) (.string "c") := by
  intro fields names all other
  have json : (Value.object fields).isJson = true := by decide
  have filled : names ≠ [] := List.cons_ne_nil _ _
  have plain : ∀ name ∈ names, (Element.field name).Expressible := by
    simp [names, Element.Expressible]
  obtain ⟨copying, keeping⟩ := copied_as_kept fields
  obtain ⟨rule, copied, kept, made, ran, selected, same, order, _⟩ := copying json names filled plain
  refine ⟨json, filled, plain, ⟨rule, copied, kept, made, ran, selected, same, order, ?_⟩, rfl, rfl,
    ?_⟩
  · cases selected
    rfl
  · refine keeping all other (.string "c") names ["c", "e"] ["c"] rfl rfl rfl fun name => ?_
    simp only [names, List.mem_cons, List.not_mem_nil, or_false]
    constructor
    · rintro rfl
      simp
    · rintro ⟨rfl | rfl | rfl | rfl, here⟩ <;> simp_all

end Recast
