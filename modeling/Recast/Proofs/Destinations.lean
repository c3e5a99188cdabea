import Recast.Proofs.Checking
import Recast.Proofs.Loading
import Recast.Value.Decidable

/-!
Destinations that a rule document names more than once. The check of a document goes through the
values of its rules, and what it reports is a fact about the rules that are built from them.

* `mem_repeated_iff`, `nodup_repeated`: one pass over texts finds those that occur twice, each once;
* `names_of_load`: a rule's value names the places that the rule writes to;
* `repeats_of_load`: a destination is reported when two rules write to it, or when one rule lists
  it twice.
-/

namespace Recast.Rule

/-! ## One pass over texts -/

/-- What is found with one more text: that text too, if it was seen before. -/
def foundWith (seen found : List String) (first : String) : List String :=
  if seen.contains first && !found.contains first then found ++ [first] else found

theorem repeated_cons (seen found : List String) (first : String) (rest : List String) :
    repeated seen found (first :: rest) =
      repeated (first :: seen) (foundWith seen found first) rest := rfl

section
variable {seen found : List String} {first : String}

theorem nodup_foundWith (distinct : found.Nodup) : (foundWith seen found first).Nodup := by
  unfold foundWith
  split
  · rename_i fresh
    simp only [Bool.and_eq_true, Bool.not_eq_true', List.contains_eq_mem, decide_eq_false_iff_not]
      at fresh
    simpa using distinct.concat fresh.2
  · exact distinct

theorem mem_foundWith_iff {text : String} :
    text ∈ foundWith seen found first ↔ text ∈ found ∨ (text = first ∧ first ∈ seen) := by
  unfold foundWith
  split
  · rename_i fresh
    simp only [Bool.and_eq_true, List.contains_eq_mem, decide_eq_true_eq] at fresh
    simp [fresh.1]
  · rename_i stale
    simp only [Bool.and_eq_true, Bool.not_eq_true', List.contains_eq_mem, decide_eq_true_eq,
      decide_eq_false_iff_not, not_and, not_not] at stale
    constructor
    · exact Or.inl
    · rintro (old | ⟨rfl, met⟩)
      · exact old
      · exact stale met

end

theorem nodup_repeated {seen found texts : List String} (distinct : found.Nodup) :
    (repeated seen found texts).Nodup := by
  induction texts generalizing seen found with
  | nil => exact distinct
  | cons first rest ih =>
    rw [repeated_cons]
    exact ih (nodup_foundWith distinct)

/-- After a pass the texts found are those found before, those met that were seen before, and those
met twice. -/
theorem mem_repeated_iff {seen found texts : List String} {text : String} :
    text ∈ repeated seen found texts ↔
      text ∈ found ∨ (text ∈ seen ∧ text ∈ texts) ∨ 2 ≤ texts.count text := by
  induction texts generalizing seen found with
  | nil => simp [repeated]
  | cons first rest ih =>
    rw [repeated_cons, ih, mem_foundWith_iff]
    -- A text that is met now counts as seen for the rest of the pass.
    by_cases same : text = first
    · subst same
      have met : 2 ≤ (text :: rest).count text ↔ text ∈ rest := by
        rw [List.count_cons_self, ← List.one_le_count_iff]
        omega
      have often : 2 ≤ rest.count text → text ∈ rest := fun twice =>
        List.one_le_count_iff.mp (by omega)
      simp only [met, List.mem_cons, true_or, true_and, and_true]
      tauto
    · rw [List.count_cons_of_ne (Ne.symm same)]
      simp [same]

/-! ## Values of rules and the rules built from them -/

/-- The texts of the places that a rule writes to. -/
def destTexts : Rule → List String
  | .single copy => [copy.dest.path.raw]
  | .several paths => paths.map (·.raw)
  | .subtree path => [path.path.raw]
  | .merge _ => []
  | .reconcile path _ _ => [path.path.raw]

def textOf? : Value → Option String
  | .string text => some text
  | _ => none

/-- The texts among the destinations that a rule's value names. -/
def named (v : Value) : List String := (destinations v).filterMap textOf?

theorem repeatedDestinations_eq (rules : List Value) :
    repeatedDestinations rules = repeated [] [] (rules.flatMap named) := by
  unfold repeatedDestinations named
  rw [← List.filterMap_flatMap]
  rfl

/-- A rule that copies several fields lists a name more than once. -/
def ListsTwice (text : String) (v : Value) : Prop :=
  ∃ fields names, v = .object fields ∧ memberOf "type" fields = .string "copy_fields" ∧
    memberOf "fields" fields = .list names ∧ 2 ≤ names.count (.string text)

theorem raw_of_ofValue {v : Value} {p : Path} (h : Path.ofValue v = .ok p) : v = .string p.raw := by
  obtain ⟨text, rfl, read⟩ := Path.text_of_ofValue h
  rw [(Path.read_eq_ok_iff.mp read).1]

theorem textOf_eq_ok {name location : String} {fields : Fields} {v : Value}
    (h : textOf name location fields = .ok v) : memberOf name fields = v := by
  unfold textOf at h
  split at h <;> cases h
  assumption

theorem listOf_eq_ok {name location : String} {fields : Fields} {items : List Value}
    (h : listOf name location fields = .ok items) (filled : items ≠ []) :
    memberOf name fields = .list items := by
  unfold listOf at h
  unfold memberOf
  split at h
  · rename_i has
    split at h <;> cases h
    rw [if_pos has]
    assumption
  · cases h
    exact absurd rfl filled

/-- A text that spells a path other than the root path is not empty. -/
theorem truthy_of_ofValue {v : Value} {p : Path} (h : Path.ofValue v = .ok p)
    (inner : p.isRoot = false) : v.truthy = true := by
  obtain rfl := raw_of_ofValue h
  have filled : p.raw ≠ "" := by
    intro empty
    rw [empty] at h
    cases h
    cases inner
  simpa [Value.truthy] using filled

theorem dest_of_copyField {source : Value} {dest : Option Value} {copy : FieldCopy}
    (h : copyField source dest = .ok copy) :
    Path.ofValue (dest.getD source) = .ok copy.dest.path := by
  obtain ⟨start, read, h⟩ := bind_eq_ok.mp h
  cases dest with
  | none =>
    obtain ⟨_, rfl, _⟩ := FieldCopy.ofPaths_ok h
    exact read
  | some dest =>
    obtain ⟨place, read', h⟩ := bind_eq_ok.mp h
    obtain ⟨_, rfl, _⟩ := FieldCopy.ofPaths_ok h
    exact read'

/-- The destination that a value names, or else the source, is the one that is written to. -/
theorem chosen_of_ofValue {dest source : Value} {p : Path}
    (h : Path.ofValue ((match dest with | .null => none | dest => some dest).getD source) = .ok p)
    (inner : p.isRoot = false) :
    (if dest.truthy then dest else source) = .string p.raw := by
  cases dest with
  | null => exact raw_of_ofValue h
  | _ => exact (if_pos (truthy_of_ofValue h inner)).trans (raw_of_ofValue h)

theorem names_of_mapM {names : List Value} {paths : List Path}
    (h : names.mapM Path.ofValue = .ok paths) : names = paths.map fun p => .string p.raw := by
  induction names generalizing paths with
  | nil =>
    cases h
    rfl
  | cons v rest ih =>
    rw [List.mapM_cons] at h
    obtain ⟨p, read, h⟩ := bind_eq_ok.mp h
    obtain ⟨others, more, h⟩ := bind_eq_ok.mp h
    cases h
    rw [List.map_cons, ← raw_of_ofValue read, ← ih more]

section
variable {fields : Fields} {location : String} {rule : Rule}

theorem named_of_loadCopyField (type : memberOf "type" fields = .string "copy_field")
    (h : loadCopyField fields location = .ok rule) : named (.object fields) = rule.destTexts := by
  obtain ⟨source, start, h⟩ := bind_eq_ok.mp h
  obtain ⟨copy, made, h⟩ := bind_eq_ok.mp h
  obtain ⟨references, _, h⟩ := bind_eq_ok.mp h
  obtain ⟨validators, _, h⟩ := bind_eq_ok.mp h
  have written : rule.destTexts = [copy.dest.path.raw] := by
    split at h
    · cases h
      rfl
    · obtain ⟨mapper, _, h⟩ := bind_eq_ok.mp h
      cases h
      rfl
  have spelled := dest_of_copyField made
  have chosen : destinations (.object fields) = [.string copy.dest.path.raw] := by
    simp only [destinations, type, textOf_eq_ok start, chosen_of_ofValue spelled copy.dest.not_root]
  rw [named, chosen, written]
  rfl

theorem named_of_loadCopy (type : memberOf "type" fields = .string "copy")
    (h : loadCopy fields location = .ok rule) : named (.object fields) = rule.destTexts := by
  obtain ⟨text, member, h⟩ := bind_eq_ok.mp h
  obtain ⟨path, read, h⟩ := bind_eq_ok.mp h
  obtain ⟨target, made, rfl⟩ := map_eq_ok.mp h
  obtain rfl := Target.path_of_ofPath made
  simp only [named, destinations, type, textOf_eq_ok member, raw_of_ofValue read]
  rfl

theorem named_of_loadMerge (type : memberOf "type" fields = .string "merge_object")
    (h : loadMerge fields = .ok rule) : named (.object fields) = rule.destTexts := by
  obtain ⟨path, _, h⟩ := bind_eq_ok.mp h
  cases h
  simp only [named, destinations, type]
  rfl

theorem listed_of_loadCopyFields (type : memberOf "type" fields = .string "copy_fields")
    (h : loadCopyFields fields location = .ok rule) :
    ∃ names, memberOf "fields" fields = .list names ∧ destinations (.object fields) = names ∧
      ∀ text, .string text ∈ names ↔ text ∈ rule.destTexts := by
  obtain ⟨names, listed, h⟩ := bind_eq_ok.mp h
  split at h
  · cases h
  · rename_i filled
    obtain ⟨paths, read, h⟩ := bind_eq_ok.mp h
    dsimp only at h
    split at h
    · cases h
    · cases h
      have member := listOf_eq_ok listed fun empty => by simp [empty] at filled
      refine ⟨names, member, by simp only [destinations, type, member]; rfl, fun text => ?_⟩
      have distinct : ∀ p, p ∈ _ ↔ p ∈ ([] : List Path) ∨ p ∈ paths := fun p => mem_distinct_iff
      simp only [destTexts, names_of_mapM read, List.mem_map, Value.string.injEq, distinct,
        List.not_mem_nil, false_or]

theorem named_of_copyArray {path : Path} {config : Config} {text idField : Value}
    (type : memberOf "type" fields = .string "copy_array_of_objects")
    (member : memberOf "path" fields = text) (read : Path.ofValue text = .ok path)
    (h : copyArray path config idField = .ok rule) : named (.object fields) = rule.destTexts := by
  obtain ⟨target, name, rfl, rfl⟩ := reconcile_of_copyArray h
  simp only [named, destinations, type, member, raw_of_ofValue read]
  rfl

end

/-- What the value of a rule names: the places that the rule writes to, each once unless the value
lists a name twice. -/
structure Names (v : Value) (rule : Rule) : Prop where
  mem_iff : ∀ text, text ∈ named v ↔ text ∈ rule.destTexts
  twice_iff : ∀ text, 2 ≤ (named v).count text ↔ ListsTwice text v

theorem count_filterMap_textOf? (names : List Value) (text : String) :
    (names.filterMap textOf?).count text = names.count (.string text) := by
  rw [List.count_filterMap, List.count]
  refine List.countP_congr fun v _ => ?_
  cases v <;> simp [textOf?]

/-- A value that does not list names has one place at most. -/
theorem names_of_single {fields : Fields} {rule : Rule}
    (other : memberOf "type" fields ≠ .string "copy_fields")
    (same : named (.object fields) = rule.destTexts)
    (one : (destinations (.object fields)).length ≤ 1) : Names (.object fields) rule where
  mem_iff text := by rw [same]
  twice_iff text := by
    constructor
    · intro twice
      have bound : (named (.object fields)).count text ≤ (destinations (.object fields)).length :=
        Nat.le_trans List.count_le_length (List.length_filterMap_le _ _)
      omega
    · rintro ⟨_, names, made, type, _⟩
      cases made
      exact absurd type other

theorem names_of_several {fields : Fields} {rule : Rule} {names : List Value}
    (type : memberOf "type" fields = .string "copy_fields")
    (member : memberOf "fields" fields = .list names)
    (listed : destinations (.object fields) = names)
    (written : ∀ text, .string text ∈ names ↔ text ∈ rule.destTexts) :
    Names (.object fields) rule where
  mem_iff text := by
    rw [← written, named, listed, ← List.one_le_count_iff, ← List.one_le_count_iff,
      count_filterMap_textOf?]
  twice_iff text := by
    rw [named, listed, count_filterMap_textOf?]
    constructor
    · exact fun twice => ⟨fields, names, rfl, type, member, twice⟩
    · rintro ⟨_, names', made, _, member', twice⟩
      cases made
      cases member.symm.trans member'
      exact twice

/-- **The value of a rule names the places that the rule writes to.** -/
theorem names_of_load {v : Value} {location : String} {rule : Rule}
    (h : load v location = .ok rule) : Names v rule := by
  cases v with
  | object fields =>
    rw [load] at h
    obtain ⟨name, typed, h⟩ := bind_eq_ok.mp h
    obtain ⟨type, known⟩ := typeOf_eq_ok.mp typed
    replace h := locate_eq_ok.mp h
    unfold loadObject at h
    split at h
    · have same := named_of_loadCopyField type h
      exact names_of_single (by simp [type]) same (by simp [destinations, type])
    · obtain ⟨names, member, listed, written⟩ := listed_of_loadCopyFields type h
      exact names_of_several type member listed written
    · have same := named_of_loadCopy type h
      exact names_of_single (by simp [type]) same (by simp [destinations, type])
    · have same := named_of_loadMerge type h
      exact names_of_single (by simp [type]) same (by simp [destinations, type])
    · obtain rfl : name = "copy_array_of_objects" := by
        simp only [types, List.mem_cons, List.not_mem_nil, or_false] at known
        tauto
      obtain ⟨rules, _, h⟩ := bind_eq_ok.mp h
      obtain ⟨text, member, h⟩ := bind_eq_ok.mp h
      obtain ⟨idField, _, h⟩ := bind_eq_ok.mp h
      obtain ⟨path, read, h⟩ := bind_eq_ok.mp h
      have same := named_of_copyArray type (textOf_eq_ok member) read h
      exact names_of_single (by simp [type]) same (by simp [destinations, type])
  | _ =>
    rw [load] at h
    · cases h
    · simp

/-! ## Whole documents -/

/-- A text occurs twice in lists that are joined when it occurs in two of them, or twice in one. -/
theorem two_le_count_flatMap {α : Type} (texts : α → List String) (xs : List α) (text : String) :
    2 ≤ (xs.flatMap texts).count text ↔
      2 ≤ xs.countP (fun x => text ∈ texts x) ∨ ∃ x ∈ xs, 2 ≤ (texts x).count text := by
  induction xs with
  | nil => simp
  | cons x rest ih =>
    have here : 1 ≤ (texts x).count text ↔ text ∈ texts x := List.one_le_count_iff
    have later : 1 ≤ (rest.flatMap texts).count text ↔
        1 ≤ rest.countP fun x => text ∈ texts x := by
      rw [List.one_le_count_iff, Nat.one_le_iff_ne_zero, ← Nat.pos_iff_ne_zero,
        List.countP_pos_iff]
      simp
    rw [List.flatMap_cons, List.count_append, List.countP_cons, List.exists_mem_cons_iff]
    generalize (rest.flatMap texts).count text = a at *
    by_cases mem : text ∈ texts x
    · have once := here.mpr mem
      simp only [mem, decide_true, if_true]
      constructor
      · intro twice
        by_cases more : 1 ≤ a
        · exact Or.inl (by have := later.mp more; omega)
        · exact Or.inr (Or.inl (by omega))
      · rintro (twice | twice | twice)
        · have more := later.mpr (by omega)
          omega
        · omega
        · have more := ih.mpr (Or.inr twice)
          omega
    · have never : (texts x).count text = 0 := List.count_eq_zero.mpr mem
      simp [mem, never, ih]

theorem loaded_of_loadItems {n : Nat} {items : List Value} {rules : List Rule}
    (h : loadItems "rules" n items = .ok rules) :
    List.Forall₂ (fun v rule => ∃ location, load v location = .ok rule) items rules := by
  induction items generalizing n rules with
  | nil =>
    cases h
    exact List.Forall₂.nil
  | cons v rest ih =>
    obtain ⟨first, read, h⟩ := bind_eq_ok.mp h
    obtain ⟨others, more, h⟩ := bind_eq_ok.mp h
    cases h
    exact List.Forall₂.cons ⟨_, read⟩ (ih more)

theorem countP_of_names {items : List Value} {rules : List Rule}
    (names : List.Forall₂ Names items rules) (text : String) :
    items.countP (fun v => text ∈ named v) = rules.countP fun rule => text ∈ rule.destTexts := by
  induction names with
  | nil => rfl
  | cons first _ ih => rw [List.countP_cons, List.countP_cons, ih]; simp only [first.mem_iff]

/-- **Repeated destinations.** Take a document whose rules can all be built. The destinations that
are reported as repeated are reported once each, and they are the texts that two rules of the
configuration write to, or that a rule that copies several fields lists twice, though it is built
with each name once. -/
theorem repeats_of_load (document : Value) (config : Config)
    (loaded : Config.load document = .ok config) :
    ∃ items, unwrap document = .list items ∧ (repeatedDestinations items).Nodup ∧
      ∀ text, text ∈ repeatedDestinations items ↔
        2 ≤ config.toList.countP (fun rule => text ∈ rule.destTexts) ∨
          ∃ v ∈ items, ListsTwice text v := by
  obtain ⟨rules, made, rfl⟩ := map_eq_ok.mp loaded
  rw [loadRules_eq] at made
  obtain ⟨items, list⟩ : ∃ items, unwrap document = .list items := by
    by_contra other
    rw [loadList_of_not_list fun items same => other ⟨items, same⟩] at made
    cases made
  rw [list] at made
  have names : List.Forall₂ Names items rules :=
    (loaded_of_loadItems made).imp fun _ _ ⟨_, read⟩ => names_of_load read
  refine ⟨items, list, nodup_repeated List.nodup_nil, fun text => ?_⟩
  have twice : ∀ v ∈ items, ∀ text, 2 ≤ (named v).count text ↔ ListsTwice text v :=
    ((List.forall₂_and_left items rules).mp (names.imp fun _ _ n => ⟨n.twice_iff, n⟩)).1
  have inOne : (∃ v ∈ items, 2 ≤ (named v).count text) ↔ ∃ v ∈ items, ListsTwice text v :=
    exists_congr fun v => and_congr_right fun mem => twice v mem text
  calc text ∈ repeatedDestinations items
      ↔ 2 ≤ (items.flatMap named).count text := by
        rw [repeatedDestinations_eq, mem_repeated_iff]
        simp
    _ ↔ 2 ≤ items.countP (fun v => text ∈ named v) ∨ ∃ v ∈ items, 2 ≤ (named v).count text :=
        two_le_count_flatMap named items text
    _ ↔ _ := by rw [countP_of_names names, inOne]; rfl

/-- Two rules write to one place, one of them by default; a third writes to another. -/
theorem repeats_of_load_default :
    let document : Value := .list
      [.object [("type", .string "copy_field"), ("from", .string "a"), ("to", .string "b")],
        .object [("type", .string "copy"), ("path", .string "c")],
        .object [("type", .string "copy_field"), ("from", .string "b")]]
    ∃ config items, Config.load document = .ok config ∧ unwrap document = .list items ∧
      "b" ∈ repeatedDestinations items ∧ "c" ∉ repeatedDestinations items := by
  intro document
  let target (name : String) (h : (⟨[.field name], name⟩ : Path).isRoot = false) : Target := ⟨_, h⟩
  let config : Config := .rules
    [.single { source := target "a" rfl, dest := target "b" rfl },
      .subtree (target "c" rfl),
      .single { source := target "b" rfl, dest := target "b" rfl }]
  have loaded : Config.load document = .ok config := rfl
  obtain ⟨items, list, _, repeats⟩ := repeats_of_load document config loaded
  refine ⟨config, items, loaded, list, (repeats "b").mpr (Or.inl (by decide)), ?_⟩
  intro reported
  cases list
  rcases (repeats "c").mp reported with twice | ⟨v, mem, fields, names, rfl, type, _⟩
  · revert twice
    decide
  · revert type
    simp only [List.mem_cons, Value.object.injEq, List.not_mem_nil, or_false] at mem
    rcases mem with rfl | rfl | rfl <;> decide

/-- One rule that lists a name twice is reported, though no other rule writes to that place and the
rule that is built lists it once. -/
theorem repeats_listed_twice :
    let document : Value := .list
      [.object [("type", .string "copy_fields"), ("fields", .list [.string "a", .string "a"])]]
    ∃ config items, Config.load document = .ok config ∧ unwrap document = .list items ∧
      "a" ∈ repeatedDestinations items ∧
      config.toList.countP (fun rule => "a" ∈ rule.destTexts) = 1 :=
  ⟨.rules [.several [⟨[.field "a"], "a"⟩]], _, rfl, rfl, by decide, by decide⟩

end Recast.Rule
