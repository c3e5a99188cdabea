import Recast.Document
import Recast.Proofs.Navigation
import Recast.Proofs.Overlay
import Recast.Proofs.Pairing
import Recast.Proofs.Reading

/-!
What sessions keep. A document that was parsed is JSON, and whatever a session makes of it is JSON
too, or absent as a whole. Each way to make a value has a law of its own:

* `isJson_merge`: JSON laid over JSON is JSON;
* `isJson_only`: some of an object's fields are an object again;
* `print_of_isJson`: JSON has a text, unless an integer in it is too long.

With the law of configurations they give what a step keeps (`isPart_make`), and so what a session
keeps, however many steps it takes (`run_keeps_json`).
-/

namespace Recast

open Value

/-! ## Translating -/

namespace Translate

variable {locations : Locations}

theorem isJson_merged_fields {here : Location} {fields others : Fields} {r : Value}
    (below : ∀ f ∈ fields, ∀ (here : Location) (override r : Value), override.isJson = true →
      merge locations here f.2 override = .ok r → r.isJson = true)
    (json : (object fields).isJson = true) (json' : (object others).isJson = true)
    (h : merge locations here (.object fields) (.object others) = .ok r) : r.isJson = true := by
  obtain ⟨merged, made, rfl⟩ := merge_objects_ok h
  obtain ⟨distinct, members⟩ := isJson_object_iff.mp json
  obtain ⟨distinct', members'⟩ := isJson_object_iff.mp json'
  refine isJson_object_iff.mpr ⟨nodup_merged made distinct distinct', ?_⟩
  intro f mem
  rcases List.mem_append.mp mem with mem | mem
  · obtain ⟨v, old, laid⟩ := exists_of_mem_mergeFields made mem
    by_cases overridden : Fields.has f.1 others = true
    · rw [if_pos overridden] at laid
      have member := members' _ (Fields.mem_of_has overridden)
      exact below (f.1, v) old _ _ _ member laid
    · rw [if_neg overridden] at laid
      cases laid
      exact members (f.1, f.2) old
  · exact members' f (List.mem_filter.mp mem).1

/-- **Laying JSON over JSON gives JSON.** -/
theorem isJson_merge {base : Value} (json : base.isJson = true) :
    ∀ (here : Location) (override r : Value), override.isJson = true →
      merge locations here base override = .ok r → r.isJson = true := by
  induction base using nested_induction with
  | object fields ih =>
    intro here override r json' h
    cases override with
    | object others =>
      obtain ⟨_, members⟩ := isJson_object_iff.mp json
      exact isJson_merged_fields (fun f mem => ih f mem (members f mem)) json json' h
    | _ =>
      rw [merge_override (by simp [kind?])] at h
      cases h
      exact json'
  | array fixed items ih =>
    intro here override r json' h
    cases override with
    | array fixed' others =>
      obtain ⟨_, members⟩ := all_array_iff.mp json
      obtain ⟨_, members'⟩ := all_array_iff.mp json'
      cases reconciled : locations.idField? here with
      | none =>
        simp only [merge, reconciled] at h
        cases h
        exact json'
      | some idField =>
        obtain ⟨merged, pairs, kept, rfl, made⟩ := merge_reconciled members' reconciled h
        refine isJson_list_iff.mpr fun r mem => ?_
        rcases made.exists_of_mem mem with ⟨b, hb, o, ho, joined⟩ | kept
        · exact ih b hb (members b hb) _ o r (members' o ho) joined
        · exact members' r kept
    | _ =>
      rw [merge_override (by simp [kind?])] at h
      cases h
      exact json'
  | _ =>
    intro here override r json' h
    rw [merge_override (by simp [kind?])] at h
    cases h
    exact json'

theorem isPart_merge {here : Location} {base override r : Value} (part : base.isPart = true)
    (part' : override.isPart = true) (h : merge locations here base override = .ok r) :
    r.isPart = true := by
  rcases isPart_iff.mp part with rfl | json
  · rw [merge_absent] at h
    cases h
    exact part'
  · rcases isPart_iff.mp part' with rfl | json'
    · have none_inside : base.kind? = kind? .absent → base.kind? ≠ some .object ∧
          base.kind? ≠ some .array := by
        intro same
        rw [same]
        decide
      rw [merge_override none_inside] at h
      cases h
      exact part'
    · exact isPart_of_isJson (isJson_merge json here override r json' h)

end Translate

theorem isJson_transform {config : Config} (keeps : config.Every Rule.KeepsJson)
    {source out : Value} (part : source.isPart = true) (h : transform config source = .ok out) :
    out.isJson = true := by
  cases config with
  | rules rules => exact isJson_of_run keeps part h
  | misplaced v => cases h

theorem isPart_translate {base override r : Value} {config? : Option Config}
    (part : base.isPart = true) (part' : override.isPart = true)
    (keeps : ∀ config, config? = some config → config.Every Rule.KeepsJson)
    (h : translate base override config? = .ok r) : r.isPart = true := by
  cases config? with
  | none => exact Translate.isPart_merge part part' (mapError_eq_ok.mp h)
  | some config =>
    simp only [translate] at h
    obtain ⟨shaped, made, h⟩ := bind_eq_ok.mp h
    obtain ⟨locations, _, h⟩ := bind_eq_ok.mp h
    have json : shaped.isJson = true := isJson_transform (keeps config rfl) part' made
    exact Translate.isPart_merge part (isPart_of_isJson json) (mapError_eq_ok.mp h)

/-! ## Keeping fields -/

theorem isJson_only {v selection r : Value} (part : v.isPart = true)
    (h : only v selection = .ok r) : r.isJson = true := by
  cases v with
  | object fields =>
    obtain ⟨names, _, h⟩ := bind_eq_ok.mp h
    cases h
    obtain ⟨distinct, members⟩ := isJson_object_iff.mp (isJson_of_isPart part rfl)
    refine isJson_object_iff.mpr ⟨?_, ?_⟩
    · exact distinct.sublist (List.filter_sublist.map _)
    · intro f mem
      exact members f (List.mem_filter.mp mem).1
  | _ => cases h

/-! ## Printing -/

theorem isWritten_of_isJson {v : Value} (json : v.isJson = true)
    (short : v.all Value.isShort = true) : v.all Value.isWritten = true := by
  refine all_imp ?_ (all_and json short)
  intro w both
  obtain ⟨proper, short⟩ := Bool.and_eq_true_iff.mp both
  cases w with
  | absent | foreign => cases proper
  | int n => exact short
  | null | bool | double | string | array | object => rfl

/-- JSON has a text, in either layout, unless an integer in it is too long. -/
theorem Json.print_of_isJson (layout : Layout) {v : Value} (json : v.isJson = true)
    (short : v.all Value.isShort = true) : ∃ text, print layout v = .ok text := by
  have verdict := write_verdict layout 0 v
  unfold print
  cases written : write layout 0 v with
  | ok text => exact ⟨_, rfl⟩
  | error cause =>
    rw [written] at verdict
    have unwritten : v.all Value.isWritten = false := verdict.1
    rw [isWritten_of_isJson json short] at unwritten
    cases unwritten

/-! ## Steps -/

namespace Document

theorem value_of_ofValue {v : Value} {d : Document} (h : ofValue v = .ok d) : d.value = v := by
  unfold ofValue at h
  split at h <;> cases h
  rfl

theorem isJson_of_parse {text : Value} {d : Document} (h : parse text = .ok d) :
    d.value.isJson = true := by
  obtain ⟨v, read, h⟩ := bind_eq_ok.mp h
  rw [value_of_ofValue h]
  exact Json.isJson_of_parse read

end Document

namespace Session

mutual

/-- A document that a session can reach: it was parsed, or a step was taken from such a document. -/
inductive Reached : Document → Prop where
  | parsed {text : Value} {d : Document} (h : Document.parse text = .ok d) : Reached d
  | advanced {d : Document} {s : Step} (before : Reached d) (allowed : Allowed s) :
      Reached (advance d s)

/-- A step that brings in nothing but JSON: mappers make JSON of JSON, and what is laid over a
document is itself a document that a session can reach. -/
inductive Allowed : Step → Prop where
  | navigate (path : Path) : Allowed (.navigate path)
  | transform {config : Config} (keeps : config.Every Rule.KeepsJson) :
      Allowed (.transform config)
  | translate {override : Document} {config? : Option Config} (reached : Reached override)
      (keeps : ∀ config, config? = some config → config.Every Rule.KeepsJson) :
      Allowed (.translate override.value config?)
  | only (selection : Value) : Allowed (.only selection)

end

theorem advance_eq {d next : Document} {s : Step} (h : make d s = .ok next) :
    advance d s = next := by
  rw [advance, h]

/-- A step that fails leaves the document. -/
theorem advance_of_error {d : Document} {s : Step} {e : Failure} (h : make d s = .error e) :
    advance d s = d := by
  rw [advance, h]

mutual

theorem isPart_of_reached : {d : Document} → Reached d → d.value.isPart = true
  | _, .parsed h => isPart_of_isJson (Document.isJson_of_parse h)
  | _, @Reached.advanced d s before allowed => by
    have part := isPart_of_reached before
    cases h : make d s with
    | error e =>
      rw [advance_of_error h]
      exact part
    | ok next =>
      rw [advance_eq h]
      exact isPart_make part allowed h

/-- **What a step keeps.** Of JSON, or of nothing, it makes JSON or nothing. -/
theorem isPart_make {d next : Document} (part : d.value.isPart = true) :
    {s : Step} → Allowed s → make d s = .ok next → next.value.isPart = true
  | _, .navigate path, h => by
    rw [Document.value_of_ofValue h]
    exact isPart_resolve_part part path.elements
  | _, .transform keeps, h => by
    obtain ⟨v, made, h⟩ := bind_eq_ok.mp h
    rw [Document.value_of_ofValue h]
    exact isPart_of_isJson (isJson_transform keeps part made)
  | _, .translate reached keeps, h => by
    -- What is laid over the document was reached as well, so the recursion covers it.
    have part' := isPart_of_reached reached
    obtain ⟨v, made, h⟩ := bind_eq_ok.mp h
    rw [Document.value_of_ofValue h]
    exact isPart_translate part part' keeps made
  | _, .only selection, h => by
    obtain ⟨v, made, h⟩ := bind_eq_ok.mp h
    rw [Document.value_of_ofValue h]
    exact isPart_of_isJson (isJson_only part made)

end

/-! ## Sessions -/

theorem reached_run {d : Document} (before : Reached d) {steps : List Step}
    (allowed : ∀ s ∈ steps, Allowed s) : Reached (run d steps) := by
  induction steps generalizing d with
  | nil => exact before
  | cons s rest ih =>
    obtain ⟨first, later⟩ := List.forall_mem_cons.mp allowed
    exact ih (.advanced before first) later

/-- **Sessions keep JSON.** Take a document that was parsed and steps of any number, whose overrides
are documents that such sessions reach and whose mappers make JSON of JSON. Then the document is
JSON or absent as a whole: nothing inside it is absent or foreign, and the fields of each object in
it have different names. A step that fails leaves it as it was. If it is not absent and its integers
are short enough, it can be printed. -/
theorem run_keeps_json {text : Value} {d : Document} (parsed : Document.parse text = .ok d)
    (steps : List Step) (allowed : ∀ s ∈ steps, Allowed s) :
    ((run d steps).value = .absent ∨ (run d steps).value.isJson = true) ∧
    (∀ s e, make (run d steps) s = .error e → run d (steps ++ [s]) = run d steps) ∧
    ((run d steps).value ≠ .absent → (run d steps).value.all Value.isShort = true →
      ∀ layout, ∃ text, (run d steps).print layout = .ok text) := by
  have reached : Reached (run d steps) := reached_run (.parsed parsed) allowed
  have part := isPart_iff.mp (isPart_of_reached reached)
  refine ⟨part, ?_, ?_⟩
  · intro s e failed
    rw [run, List.foldl_append]
    exact advance_of_error failed
  · intro present short layout
    rcases part with absent | json
    · exact absurd absent present
    · exact Json.print_of_isJson layout json short

/-- A selection fails on an array and leaves it. Behind the end of the array that is laid over it
there is nothing; a validator that accepts nothing lets a rule pass, but nothing is written. -/
theorem run_keeps_json_absent :
    let lenient : Validator :=
      { name := "lenient", requiresPresence := true, accepts := fun _ _ => .ok true }
    let id : Target := ⟨⟨[.field "id"], "id"⟩, rfl⟩
    let steps : List Step := [.only (.string "id"), .translate (.list [.int 8]) none,
      .navigate ⟨[.index 1], "[1]"⟩,
      .transform (.rules [.single { source := id, dest := id, validators := [lenient] }])]
    ∃ d, Document.parse (.string "[7]") = .ok d ∧ (∀ s ∈ steps, Allowed s) ∧
      (run d steps).value = .object [] ∧
      ∀ layout, ∃ text, (run d steps).print layout = .ok text := by
  intro lenient id steps
  have parsed : Document.parse (.string "[7]") = .ok ⟨.list [.int 7], rfl⟩ := by rfl
  have other : Document.parse (.string "[8]") = .ok ⟨.list [.int 8], rfl⟩ := by rfl
  have keeps : (Config.rules [.single { source := id, dest := id, validators := [lenient] }]).Every
      Rule.KeepsJson := by
    refine Config.every_cons.mpr ⟨?_, Config.every_nil, Config.every_nil⟩
    intro m mapper
    cases mapper
  have plain : ∀ config : Config, none = some config → config.Every Rule.KeepsJson := by
    intro config h
    cases h
  have allowed : ∀ s ∈ steps, Allowed s := by
    simp only [steps, List.forall_mem_cons, List.not_mem_nil, false_imp_iff, implies_true, and_true]
    exact ⟨.only _, .translate (.parsed other) plain, .navigate _, .transform keeps⟩
  have result : (run ⟨.list [.int 7], rfl⟩ steps).value = .object [] := by rfl
  have present : Value.object [] ≠ .absent := by
    intro h
    cases h
  obtain ⟨_, _, printed⟩ := run_keeps_json parsed steps allowed
  refine ⟨_, parsed, allowed, result, printed ?_ ?_⟩
  · rw [result]
    exact present
  · rw [result]
    rfl

end Session

end Recast
