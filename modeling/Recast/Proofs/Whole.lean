import Recast.Document
import Recast.Proofs.Layers
import Recast.Proofs.Repeat

/-!
The configuration that takes an override whole. It makes a copy of an object, and where there is
nothing it makes an object without fields; so the two ways to lay an override over a document, with
this configuration and without one, agree on every object (`translate_whole_of_object`). They
disagree where the override is absent: with the configuration an object keeps what it has, and
without one nothing is left (`translate_of_absent`). Main statement: `translate_whole`.
-/

namespace Recast

/-- The configuration whose only rule merges the whole override into the output. -/
def Config.whole : Config := .rules [.merge ⟨[], ""⟩]

/-! ## Shaping -/

theorem transform_whole {fields : Fields} (distinct : (Fields.names fields).Nodup) :
    transform .whole (.object fields) = .ok (.object fields) := by
  have kept : Fields.setAll [] fields = fields := Fields.setAll_of_nodup distinct
  have shaped : transform .whole (.object fields) = .ok (.object (Fields.setAll [] fields)) := rfl
  rw [shaped, kept]

theorem transform_whole_absent : transform .whole .absent = .ok (.object []) := rfl

theorem locations_whole : Config.whole.locations [] = .ok [] := rfl

/-! ## Laying over a document -/

namespace Document

theorem ofValue_value (d : Document) : ofValue d.value = .ok d := dif_pos d.has_kind

theorem ofValue_object {v : Value} (object : v.isObject = true) :
    ∃ d, ofValue v = .ok d ∧ d.value.isObject = true := by
  obtain ⟨fields, rfl⟩ := Value.isObject_iff.mp object
  exact ⟨_, rfl, rfl⟩

/-- Without a configuration the override itself is laid over the document. -/
theorem translate_plain (d : Document) (override : Value) :
    d.translate override none = ofValue (Translate.lay d.value override) := by
  rw [translate, translate_none, Translate.merge_eq_lay]
  rfl

/-- A configuration that reconciles no array lays what it makes of an override over a document. -/
theorem translate_shaped {config : Config} {override shaped : Value}
    (reshaped : Recast.transform config override = .ok shaped)
    (located : config.locations [] = .ok []) (d : Document) :
    d.translate override (some config) = d.translate shaped none := by
  rw [translate, translate_some reshaped located, translate, translate_none]

theorem translate_whole_of_object {fields : Fields} (distinct : (Fields.names fields).Nodup)
    (d : Document) :
    d.translate (.object fields) (some .whole) = d.translate (.object fields) none :=
  translate_shaped (transform_whole distinct) locations_whole d

theorem translate_whole_of_absent {d : Document} (object : d.value.isObject = true) :
    d.translate .absent (some .whole) = .ok d := by
  rw [translate_shaped transform_whole_absent locations_whole, translate_plain,
    Translate.lay_empty object, ofValue_value]

/-- An absent override replaces the document. -/
theorem translate_of_absent (d : Document) : d.translate .absent none = .ok .absent := by
  rw [translate_plain, Translate.lay_of_cover rfl]
  rfl

/-- **Overrides taken whole.** Laid over any document, an object gives the same object whether it
goes through the configuration that takes it whole or not. An absent override leaves an object as it
is when it goes through that configuration; without one the result is absent, whatever the document
was. -/
theorem translate_whole (d : Document) :
    (∀ override : Value, override.isObject = true → override.isJson = true →
      ∃ r, d.translate override none = .ok r ∧ d.translate override (some .whole) = .ok r ∧
        r.value.isObject = true) ∧
    (d.value.isObject = true → d.translate .absent (some .whole) = .ok d) ∧
    d.translate .absent none = .ok .absent := by
  refine ⟨?_, translate_whole_of_absent, translate_of_absent d⟩
  intro override object json
  obtain ⟨fields, rfl⟩ := Value.isObject_iff.mp object
  have distinct : (Fields.names fields).Nodup := (Value.isJson_object_iff.mp json).1
  have laid : (Translate.lay d.value (.object fields)).isObject = true :=
    Translate.isObject_lay object d.value
  obtain ⟨r, made, same⟩ := ofValue_object laid
  rw [← translate_plain] at made
  exact ⟨r, made, (translate_whole_of_object distinct d).trans made, same⟩

/-- The field of both objects keeps its place, and the override's value counts. -/
theorem translate_whole_fields :
    let d : Document := ⟨.object [("a", .int 1), ("b", .null)], rfl⟩
    let override : Value := .object [("c", .bool true), ("a", .int 2)]
    override.isObject = true ∧ override.isJson = true ∧ d.value.isObject = true ∧
      (∃ r, d.translate override none = .ok r ∧ d.translate override (some .whole) = .ok r ∧
        r.value.isObject = true) ∧
      d.translate .absent (some .whole) = .ok d := by
  intro d override
  have json : override.isJson = true := by decide
  obtain ⟨agrees, keeps, _⟩ := translate_whole d
  exact ⟨rfl, json, rfl, agrees override rfl json, keeps rfl⟩

/-- Without a configuration an absent override takes an object away, which the configuration that
takes overrides whole keeps. -/
theorem translate_loses_base :
    let d : Document := ⟨.object [("a", .int 1)], rfl⟩
    d.translate .absent (some .whole) = .ok d ∧ d.translate .absent none = .ok .absent ∧
      d ≠ .absent := by
  intro d
  refine ⟨translate_whole_of_absent rfl, translate_of_absent d, ?_⟩
  intro same
  cases congrArg Document.value same

end Document

end Recast
