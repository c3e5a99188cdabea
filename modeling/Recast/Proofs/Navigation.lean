import Recast.Document
import Recast.Proofs.Notation
import Recast.Proofs.Throughout

/-!
Navigation in two steps and in one. A path text is put behind another with a point between them,
unless it starts with an index or one of the two is empty (`Path.joined`).

* `read_joined`: the joined text spells the elements of both;
* `navigate_part`: in JSON every path leads to a document;
* `navigate_joined`: to follow one path and then another is to follow the joined one.
-/

namespace Recast

/-! ## Joined texts -/

namespace Path

/-- A path text behind another. -/
def joined (p q : String) : String :=
  if p.isEmpty then q
  else if q.isEmpty then p
  else if q.toList.head? = some '[' then p ++ q
  else p ++ "." ++ q

theorem elements_of_spells_nil {fits : List Char → Prop} {es : List Element}
    (h : Spells fits [] es) : es = [] := by
  generalize blank : ([] : List Char) = text at h
  cases h with
  | root => rfl
  | segment proper _ => exact absurd blank.symm (Segment.text_ne_nil proper)
  | cons _ _ _ _ => simp at blank

theorem spells_joined {fits : List Char → Prop} {p q : String} {es fs : List Element}
    (hp : Spells fits p.toList es) (hq : Spells fits q.toList fs) :
    Spells fits (joined p q).toList (es ++ fs) := by
  unfold joined
  by_cases blank : p.isEmpty = true
  · have empty : p = "" := by simpa using blank
    subst empty
    have none : es = [] := elements_of_spells_nil hp
    simpa [none] using hq
  · have filled : p.toList ≠ [] := by simpa using blank
    rw [if_neg blank]
    by_cases blank' : q.isEmpty = true
    · have empty : q = "" := by simpa using blank'
      subst empty
      have none : fs = [] := elements_of_spells_nil hq
      simpa [none] using hp
    · have filled' : q.toList ≠ [] := by simpa using blank'
      rw [if_neg blank']
      by_cases index : q.toList.head? = some '['
      · rw [if_pos index, String.toList_append]
        obtain ⟨rest, start⟩ := List.head?_eq_some_iff.mp index
        rw [start] at hq ⊢
        exact hp.glue hq filled
      · rw [if_neg index]
        have spelled := hp.point hq filled filled'
        simpa using spelled

/-- **Path texts concatenate.** Two texts that are read as paths can be joined, and the joined text
is read as the elements of the first and then those of the second. -/
theorem read_joined {p q : String} {first second : Path} (hp : read p = .ok first)
    (hq : read q = .ok second) :
    read (joined p q) = .ok ⟨first.elements ++ second.elements, joined p q⟩ := by
  rw [read_eq_ok_iff] at hp hq ⊢
  exact ⟨rfl, spells_joined hp.2 hq.2⟩

end Path

/-! ## Documents -/

namespace Value

theorem kind?_of_isPart {v : Value} (part : v.isPart = true) : v.kind?.isSome = true := by
  cases v with
  | foreign => cases part
  | _ => rfl

end Value

namespace Document

theorem ofValue_part {v : Value} (part : v.isPart = true) :
    ∃ d, ofValue v = .ok d ∧ d.value = v := by
  have known := Value.kind?_of_isPart part
  exact ⟨⟨v, known⟩, dif_pos known, rfl⟩

/-- In JSON, or where there is nothing, a path leads to a document. -/
theorem navigate_part {d : Document} (part : d.value.isPart = true) (path : Path) :
    ∃ e, d.navigate path = .ok e ∧ e.value = d.value.resolve path.elements :=
  ofValue_part (Value.isPart_resolve_part part path.elements)

/-- **Navigation composes.** Take two texts that are read as paths, and JSON or nothing. To follow
the one path and then the other leads to the same document, absent or not, as the path of the joined
text, which has the elements of both. -/
theorem navigate_joined (d : Document) (part : d.value.isPart = true) (p q : String)
    (first second : Path) (hp : Path.read p = .ok first) (hq : Path.read q = .ok second) :
    ∃ whole between reached, Path.read (Path.joined p q) = .ok whole ∧
      whole.elements = first.elements ++ second.elements ∧
      d.navigate first = .ok between ∧ between.navigate second = .ok reached ∧
      d.navigate whole = .ok reached := by
  obtain ⟨between, there, found⟩ := navigate_part part first
  have part' : between.value.isPart = true := by
    rw [found]
    exact Value.isPart_resolve_part part first.elements
  obtain ⟨reached, onward, _⟩ := navigate_part part' second
  refine ⟨_, between, reached, Path.read_joined hp hq, rfl, there, onward, ?_⟩
  rw [← onward]
  simp only [navigate, found, Value.resolve_append]

/-- An index behind an index needs no point, and leads into the same row. -/
theorem navigate_joined_cell :
    let d : Document := ⟨.object [("rows", .list [.list [.object [("id", .int 7)]]])], rfl⟩
    d.value.isPart = true ∧ Path.joined "rows[0]" "[0].id" = "rows[0][0].id" ∧
    Path.read "rows[0]" = .ok ⟨[.field "rows", .index 0], "rows[0]"⟩ ∧
    Path.read "[0].id" = .ok ⟨[.index 0, .field "id"], "[0].id"⟩ ∧
    ∃ whole between reached, Path.read "rows[0][0].id" = .ok whole ∧
      d.navigate ⟨[.field "rows", .index 0], "rows[0]"⟩ = .ok between ∧
      between.navigate ⟨[.index 0, .field "id"], "[0].id"⟩ = .ok reached ∧
      d.navigate whole = .ok reached := by
  intro d
  have part : d.value.isPart = true := by decide
  have text : Path.joined "rows[0]" "[0].id" = "rows[0][0].id" := by decide
  have first : Path.read "rows[0]" = .ok ⟨[.field "rows", .index 0], "rows[0]"⟩ := by decide
  have second : Path.read "[0].id" = .ok ⟨[.index 0, .field "id"], "[0].id"⟩ := by decide
  obtain ⟨whole, between, reached, read, _, there, onward, at_once⟩ :=
    navigate_joined d part _ _ _ _ first second
  rw [text] at read
  exact ⟨part, text, first, second, whole, between, reached, read, there, onward, at_once⟩

end Document

end Recast
