import Mathlib.Data.List.Nodup
import Recast.Proofs.Chains
import Recast.Proofs.Edits

/-!
Rules keep JSON. A configuration whose mappers make JSON of JSON makes JSON of JSON, and also of
nothing (`isJson_of_run`). It is sound when its nested configurations are in their places too. Edits
matter here only through their values: an update of JSON with JSON is JSON (`isJson_update`),
whatever its place.
-/

namespace Recast

namespace Fields

theorem names_set (name : String) (v : Value) (fields : Fields) :
    names (set name v fields) =
      if has name fields then names fields else names fields ++ [name] := by
  induction fields with
  | nil => rfl
  | cons field rest ih =>
    obtain ⟨key, old⟩ := field
    by_cases hk : key = name
    · simp [set, names, has, hk]
    · have hr : has name ((key, old) :: rest) = has name rest := by simp [has, hk]
      rw [hr]
      simp only [set, if_neg hk]
      simp only [names, List.map_cons] at ih ⊢
      rw [ih]
      split <;> rfl

theorem has_set_iff {name other : String} {v : Value} {fields : Fields} :
    has other (set name v fields) = true ↔ other = name ∨ has other fields = true := by
  rw [has_iff, has_iff, names_set]
  cases found : has name fields with
  | true =>
    have mem := has_iff.mp found
    constructor
    · exact Or.inr
    · rintro (rfl | h)
      · exact mem
      · exact h
  | false => simp [or_comm]

theorem has_set_of_ne {name other : String} (h : other ≠ name) (v : Value) (fields : Fields) :
    has other (set name v fields) = has other fields := by
  rw [Bool.eq_iff_iff, has_set_iff, or_iff_right h]

theorem mem_set {name : String} {v : Value} {fields : Fields} {f : String × Value}
    (h : f ∈ set name v fields) : f.2 = v ∨ f ∈ fields := by
  induction fields with
  | nil =>
    rw [set, List.mem_singleton] at h
    exact Or.inl (congrArg Prod.snd h)
  | cons field rest ih =>
    obtain ⟨key, old⟩ := field
    unfold set at h
    split at h
    · rcases List.mem_cons.mp h with rfl | h
      · exact Or.inl rfl
      · exact Or.inr (List.mem_cons_of_mem _ h)
    · rcases List.mem_cons.mp h with rfl | h
      · exact Or.inr List.mem_cons_self
      · exact (ih h).imp_right (List.mem_cons_of_mem _)

end Fields

namespace Value

/-! ## Updates -/

theorem isJson_object_iff {fields : Fields} :
    (object fields).isJson = true ↔
      (Fields.names fields).Nodup ∧ ∀ f ∈ fields, f.2.isJson = true := by
  rw [isJson, all_object_iff, isProper, decide_eq_true_iff]
  rfl

theorem isJson_list_iff {items : List Value} :
    (list items).isJson = true ↔ ∀ v ∈ items, v.isJson = true := by
  simp [list, isJson, all_array_iff, isProper]

section
variable {test : Value → Bool}
  (object_iff : ∀ fields, test (object fields) = decide (Fields.names fields).Nodup)
include object_iff

/-- A test that asks of an object no more than that its fields have different names holds throughout
an object with one more field, if it does throughout the parts. -/
theorem all_set {name : String} {v : Value} {fields : Fields}
    (all : (object fields).all test = true) (hv : v.all test = true) :
    (object (Fields.set name v fields)).all test = true := by
  obtain ⟨distinct, members⟩ := all_object_iff.mp all
  rw [object_iff, decide_eq_true_iff] at distinct
  refine all_object_iff.mpr ⟨?_, fun f hf => ?_⟩
  · rw [object_iff, decide_eq_true_iff, Fields.names_set]
    split
    · exact distinct
    · rename_i fresh
      rw [Fields.has_iff] at fresh
      exact List.nodup_append_comm.mp (List.nodup_cons.mpr ⟨fresh, distinct⟩)
  · rcases Fields.mem_set hf with rfl | hf
    · exact hv
    · exact members f hf

theorem all_setAll {fields more : Fields} (all : (object fields).all test = true)
    (hmore : ∀ f ∈ more, f.2.all test = true) :
    (object (Fields.setAll fields more)).all test = true := by
  induction more generalizing fields with
  | nil => exact all
  | cons f rest ih =>
    obtain ⟨hf, hrest⟩ := List.forall_mem_cons.mp hmore
    exact ih (all_set object_iff all hf) hrest

end

theorem isJson_set {name : String} {v : Value} {fields : Fields}
    (json : (object fields).isJson = true) (hv : v.isJson = true) :
    (object (Fields.set name v fields)).isJson = true :=
  all_set (fun _ => rfl) json hv

theorem isJson_setAll {fields more : Fields} (json : (object fields).isJson = true)
    (hmore : ∀ f ∈ more, f.2.isJson = true) :
    (object (Fields.setAll fields more)).isJson = true :=
  all_setAll (fun _ => rfl) json hmore

theorem mem_setItem {n : Nat} {v w : Value} {items : List Value} (h : w ∈ setItem n v items) :
    w = v ∨ w ∈ items := by
  induction items generalizing n with
  | nil => exact Or.inl (List.mem_singleton.mp h)
  | cons old rest ih =>
    unfold setItem at h
    split at h
    · exact (List.mem_cons.mp h).imp_right (List.mem_cons_of_mem _)
    · rcases List.mem_cons.mp h with rfl | h
      · exact Or.inr List.mem_cons_self
      · exact (ih h).imp_right (List.mem_cons_of_mem _)

theorem isJson_place {container x : Value} {e : Element} (suits : container.suits e = true)
    (json : container.isJson = true) (hx : x.isJson = true) :
    (container.place e x).isJson = true := by
  rcases suits_iff.mp suits with ⟨name, fields, rfl, rfl⟩ | ⟨n, items, rfl, rfl⟩
  · exact isJson_set json hx
  · refine isJson_list_iff.mpr fun w hw => ?_
    rcases mem_setItem hw with rfl | hw
    · exact hx
    · exact isJson_list_iff.mp json w hw

theorem isJson_enter {old : Value} (part : old.isPart = true) (e : Element) :
    (enter e old).isJson = true := by
  unfold enter
  split
  · rename_i suits
    rcases isPart_iff.mp part with rfl | json
    · cases e <;> cases suits
    · exact json
  · cases e <;> rfl

theorem isJson_update {v old new : Value} {p : List Element} (hv : v.isJson = true)
    (part : old.isPart = true) (h : update v p old = some new) : new.isJson = true := by
  induction p generalizing old new with
  | nil =>
    cases h
    exact hv
  | cons e rest ih =>
    obtain ⟨_, x, below, rfl⟩ := update_cons.mp h
    have entered := isJson_enter part e
    exact isJson_place (suits_enter e old) entered (ih (isPart_select entered e) below)

end Value

open Value

theorem isJson_applyAll {output after : Value} {es : List Edit} (json : output.isJson = true)
    (values : ∀ e ∈ es, e.value.isJson = true) (h : Edit.applyAll output es = .ok after) :
    after.isJson = true := by
  refine Edit.applyAll_induct (motive := fun v => v.isJson = true)
    (fun e he reached next json made => ?_) json h
  exact isJson_update (values e he) (isPart_iff.mpr (Or.inr json)) (write_ok_iff.mp made).2

/-! ## Elements -/

/-- The element that a rule makes of an object. -/
def Transform.Shapes (shape : Value → Outcome Value) (idField : String)
    (element shaped : Value) : Prop :=
  ∃ fields, element = .object fields ∧ shapeElement shape idField fields = .ok shaped

theorem shapeElements_ok {shape : Value → Outcome Value} {idField : String} {path : Target}
    {n : Nat} {items shaped : List Value}
    (h : Transform.shapeElements shape idField path n items = .ok shaped) :
    List.Forall₂ (Transform.Shapes shape idField) items shaped := by
  induction items generalizing n shaped with
  | nil =>
    cases h
    exact List.Forall₂.nil
  | cons element rest ih =>
    cases element with
    | object fields =>
      obtain ⟨first, made, h⟩ := bind_eq_ok.mp h
      obtain ⟨others, more, h⟩ := bind_eq_ok.mp h
      cases h
      exact List.Forall₂.cons ⟨fields, rfl, Outcome.mapFault_eq_ok.mp made⟩ (ih more)
    | _ => cases h

theorem isJson_of_shapes {shape : Value → Outcome Value} {idField : String}
    {element shaped : Value}
    (keeps : ∀ v w, v.isJson = true → shape v = .ok w → w.isJson = true)
    (json : element.isJson = true) (h : Transform.Shapes shape idField element shaped) :
    shaped.isJson = true := by
  obtain ⟨fields, rfl, h⟩ := h
  obtain ⟨made, ran, h⟩ := bind_eq_ok.mp h
  cases h
  apply isJson_setAll
  · split
    · rename_i has
      have id := (isJson_object_iff.mp json).2 _ (Fields.mem_of_has has)
      exact isJson_object_iff.mpr ⟨by simp [Fields.names], by simpa using id⟩
    · rfl
  · have json' := keeps _ made json ran
    cases made with
    | object more => exact (isJson_object_iff.mp json').2
    | _ => exact fun f hf => absurd hf List.not_mem_nil

theorem isJson_of_all_shapes {shape : Value → Outcome Value} {idField : String}
    {items shaped : List Value}
    (keeps : ∀ v w, v.isJson = true → shape v = .ok w → w.isJson = true)
    (json : ∀ v ∈ items, v.isJson = true)
    (all : List.Forall₂ (Transform.Shapes shape idField) items shaped) :
    ∀ v ∈ shaped, v.isJson = true := by
  induction all with
  | nil => simp
  | cons made _ ih =>
    obtain ⟨here, json⟩ := List.forall_mem_cons.mp json
    exact List.forall_mem_cons.mpr ⟨isJson_of_shapes keeps here made, ih json⟩

/-! ## Rules -/

def Mapper.KeepsJson (m : Mapper) : Prop :=
  ∀ v w, v.isJson = true → m.map v = .ok w → w.isJson = true

theorem Mapper.keepsJson_ofText (name : String) (change : String → String) :
    (Mapper.ofText name change).KeepsJson := by
  intro v w json h
  cases v with
  | string s =>
    cases h
    rfl
  | _ =>
    cases h
    exact json

/-- Of the library's own mappers one has options, and the others have none. -/
theorem Mapper.of_named? {name : String} {build : Fields → Outcome Mapper}
    (found : named? name = some build) :
    build = prepending ∨ ∃ typeName own change, build = plain typeName own change := by
  simp only [named?, builtIn, List.lookup_eq_some_iff] at found
  obtain ⟨l, r, split, _⟩ := found
  have mem : (name, build) ∈ builtIn := by
    rw [builtIn, split]
    simp
  simp only [builtIn, List.mem_cons, Prod.mk.injEq, List.not_mem_nil, or_false] at mem
  rcases mem with ⟨_, rfl⟩ | ⟨_, rfl⟩ | ⟨_, rfl⟩ | ⟨_, rfl⟩
  · exact Or.inr ⟨_, _, _, rfl⟩
  · exact Or.inl rfl
  · exact Or.inr ⟨_, _, _, rfl⟩
  · exact Or.inr ⟨_, _, _, rfl⟩

/-- The library's own mappers change texts only, whatever their options. -/
theorem Mapper.eq_ofText_of_named {name : String} {options : Fields} {m : Mapper}
    (h : Mapper.named name options = .ok m) : ∃ name change, m = Mapper.ofText name change := by
  simp only [named] at h
  split at h
  · rename_i build found
    rcases of_named? found with rfl | ⟨typeName, own, change, rfl⟩
    · unfold prepending at h
      split at h <;> cases h
      exact ⟨_, _, rfl⟩
    · unfold plain at h
      split at h <;> cases h
      exact ⟨own, change, rfl⟩
  · cases h

/-- The library's own mappers make JSON of JSON. -/
theorem Mapper.keepsJson_named {name : String} {options : Fields} {m : Mapper}
    (h : Mapper.named name options = .ok m) : m.KeepsJson := by
  obtain ⟨own, change, rfl⟩ := eq_ofText_of_named h
  exact keepsJson_ofText own change

/-- The mapper of a rule, if it has one, makes JSON of JSON. -/
def Rule.KeepsJson : Rule → Prop
  | .single copy => ∀ m, copy.mapper = some m → m.KeepsJson
  | .several _ | .subtree _ | .merge _ | .reconcile .. => True

mutual

/-- Nested configurations are in their places, and mappers make JSON of JSON. -/
def Config.Sound : Config → Prop
  | .rules rules => rulesSound rules
  | .misplaced _ => False

def rulesSound : List Rule → Prop
  | [] => True
  | rule :: rest => rule.Sound ∧ rulesSound rest

def Rule.Sound : Rule → Prop
  | .single copy => ∀ m, copy.mapper = some m → m.KeepsJson
  | .reconcile _ config _ => config.Sound
  | .several _ => True
  | .subtree _ => True
  | .merge _ => True

end

mutual

theorem every_of_sound : (config : Config) → config.Sound →
    config.Every fun rule => rule.Placed ∧ rule.KeepsJson
  | .rules rules, sound => every_of_rulesSound rules sound
  | .misplaced _, sound => sound.elim

theorem every_of_rulesSound : (rules : List Rule) → rulesSound rules →
    (Config.rules rules).Every fun rule => rule.Placed ∧ rule.KeepsJson
  | [], _ => Config.every_nil
  | rule :: rest, sound => by
    obtain ⟨here, within⟩ := every_of_rule_sound rule sound.1
    exact Config.every_cons.mpr ⟨here, within, every_of_rulesSound rest sound.2⟩

theorem every_of_rule_sound : (rule : Rule) → rule.Sound → (rule.Placed ∧ rule.KeepsJson) ∧
    (Config.rules rule.nested).Every fun rule => rule.Placed ∧ rule.KeepsJson
  | .reconcile _ (.rules rules) _, sound => ⟨⟨rfl, trivial⟩, every_of_rulesSound rules sound⟩
  | .reconcile _ (.misplaced _) _, sound => sound.elim
  | .single _, sound => ⟨⟨trivial, sound⟩, Config.every_nil⟩
  | .several _, _ | .subtree _, _ | .merge _, _ => ⟨⟨trivial, trivial⟩, Config.every_nil⟩

end

theorem isJson_copying {source : Value} {start dest : Path} (part : source.isPart = true) :
    ∀ e ∈ Edit.copying source start dest, e.value.isJson = true := by
  intro e he
  unfold Edit.copying at he
  split at he
  · cases he
  · rename_i present
    obtain rfl := List.mem_singleton.mp he
    exact isJson_of_isPart (isPart_resolve_part part _) (by simpa using present)

theorem isJson_mapped {c : FieldCopy} {v w : Value}
    (keeps : ∀ m, c.mapper = some m → m.KeepsJson) (json : v.isJson = true)
    (h : c.mapped v = .ok w) : w.isJson = true := by
  unfold FieldCopy.mapped at h
  split at h
  · cases h
    exact json
  · rename_i m mapper
    exact keeps m mapper v w json (Outcome.adopt_eq_ok.mp h)

/-- The edits of a rule have JSON values if its mapper and the configuration inside it keep JSON.
Where a rule asks its validators about a value that is absent, they may accept it, but there is no
edit. -/
theorem isJson_edits {rule : Rule} (keeps : rule.KeepsJson)
    (inside : ∀ path config idField, rule = .reconcile path config idField →
      ∀ v w, v.isJson = true → Transform.run config v = .ok w → w.isJson = true)
    {source : Value} {es : List Edit} (part : source.isPart = true)
    (h : rule.edits source = .ok es) : ∀ e ∈ es, e.value.isJson = true := by
  cases rule with
  | single copy =>
    rcases FieldCopy.edits_ok h with ⟨_, rfl⟩ | ⟨present, w, mapped, rfl⟩
    · simp
    · intro e he
      obtain rfl := List.mem_singleton.mp he
      exact isJson_mapped keeps (isJson_of_isPart (isPart_resolve_part part _) present) mapped
  | several paths =>
    obtain ⟨_, _, h⟩ := bind_eq_ok.mp h
    cases h
    intro e he
    obtain ⟨p, _, he⟩ := List.mem_flatMap.mp he
    exact isJson_copying part e he
  | subtree path =>
    cases h
    exact isJson_copying part
  | merge path =>
    have found_part := isPart_resolve_part part path.elements
    simp only [Rule.edits] at h
    split at h
    · cases h
      simp
    · rename_i fields found
      cases h
      rw [found] at found_part
      intro e he
      obtain ⟨f, hf, rfl⟩ := List.mem_map.mp he
      exact (isJson_object_iff.mp (isJson_of_isPart found_part rfl)).2 f hf
    · cases h
  | reconcile path config idField =>
    have found_part := isPart_resolve_part part path.elements
    simp only [Rule.edits] at h
    split at h
    · cases h
      simp
    · rename_i fixed items found
      obtain ⟨shaped, elements, h⟩ := bind_eq_ok.mp h
      cases h
      rw [found] at found_part
      have members := (all_array_iff.mp (isJson_of_isPart found_part rfl)).2
      intro e he
      obtain rfl := List.mem_singleton.mp he
      exact isJson_list_iff.mpr (isJson_of_all_shapes (inside path config idField rfl) members
        (shapeElements_ok elements))
    · cases h

/-- **Configurations keep JSON.** If the mappers of a configuration make JSON of JSON, at any depth,
then so does its run, and of an absent source it makes JSON too. -/
theorem isJson_of_run {config : Config} (keeps : config.Every Rule.KeepsJson) {source out : Value}
    (part : source.isPart = true) (h : Transform.run config source = .ok out) :
    out.isJson = true := by
  induction config using Config.nested_induction generalizing source out with
  | step config ih =>
  cases config with
  | misplaced v => cases h
  | rules rules =>
    obtain ⟨edits, all, applied⟩ := (runRules_ok_iff rfl).mp h
    refine isJson_applyAll rfl (fun e he => ?_) applied
    obtain ⟨rule, hr, es, made, he⟩ := exists_rule_of_mem all he
    refine isJson_edits (keeps.of_mem hr) ?_ part made e he
    rintro path inner idField rfl v w json ran
    exact ih path inner idField hr (keeps.inside hr) (isPart_of_isJson json) ran

/-- Sound configurations keep JSON. -/
theorem isJson_run (config : Config) (sound : config.Sound) (source out : Value)
    (json : source.isJson = true) (h : Transform.run config source = .ok out) :
    out.isJson = true := by
  have keeps : config.Every Rule.KeepsJson :=
    fun chain rule leads => (every_of_sound config sound chain rule leads).2
  exact isJson_of_run keeps (isPart_of_isJson json) h

end Recast
