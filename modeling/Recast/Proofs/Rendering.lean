import Recast.Proofs.Notation
import Recast.Proofs.Numerals

/-!
Paths as texts. A path is shown in one way only, and a text can spell it in several: with a point in
front of an index, or with zeros in front of a position.

* `spells_render`: elements that path notation can express are spelled by what shows them;
* `expressible_of_spells`: what a text spells can be expressed;
* `read_render`: showing elements and reading them are inverse.
-/

namespace Recast

open Recast.Path (Spells IsShort)
open Text

/-! ## Single elements -/

theorem isNumber_write (n : Nat) : Path.isNumber (Numeral.write n) = true := by
  simp only [Path.isNumber, Numeral.write, Bool.and_eq_true, List.all_eq_true]
  exact ⟨by simp [Nat.toDigits_ne_nil],
    fun c mem => Nat.isDigit_of_mem_toDigits (by decide) (by decide) mem⟩

theorem toList_index (n : Nat) :
    (Element.index n).text.toList = '[' :: (Numeral.write n ++ [']']) := by
  simp [Element.text]

section
variable {fits : List Char → Prop}

theorem spells_index (n : Nat) (short : fits (Numeral.write n)) :
    Spells fits (Element.index n).text.toList [.index n] := by
  have proper : Path.Segment.Proper ⟨[], [Numeral.write n]⟩ :=
    ⟨by simp, by simp, by simpa using isNumber_write n⟩
  have spelled : Spells fits _ _ := .segment proper (by simpa using short)
  simpa [toList_index, Path.Segment.text, Path.Segment.elements, Path.Segment.bracketed,
    Numeral.value_write] using spelled

theorem spells_name {name : String} (filled : name ≠ "")
    (plain : ∀ c ∈ name.toList, c ≠ '.' ∧ c ≠ '[' ∧ c ≠ ']') :
    Spells fits name.toList [.field name] := by
  have proper : Path.Segment.Proper ⟨name.toList, []⟩ :=
    ⟨Or.inl (by simpa using filled), plain, by simp⟩
  have unblank : name.toList.isEmpty = false := by simpa using filled
  have spelled : Spells fits _ _ := .segment proper (by simp)
  simpa [Path.Segment.text, Path.Segment.elements, unblank] using spelled

end

/-- An element that path notation can express: the name is not empty and free of points and
brackets, and the numeral of the position is not too long. -/
def Element.Expressible : Element → Prop
  | .field name => name ≠ "" ∧ ∀ c ∈ name.toList, c ≠ '.' ∧ c ≠ '[' ∧ c ≠ ']'
  | .index n => Numeral.isWritable n = true

theorem Element.Expressible.spells {e : Element} (h : e.Expressible) :
    Spells IsShort e.text.toList [e] := by
  cases e with
  | field name => exact spells_name h.1 h.2
  | index n =>
    refine spells_index n ?_
    simpa [Element.Expressible, Numeral.isWritable, IsShort] using h

theorem Element.Expressible.text_ne_nil {e : Element} (h : e.Expressible) :
    e.text.toList ≠ [] := by
  cases e with
  | field name => simpa [Element.text] using h.1
  | index n => simp [toList_index]

/-! ## What is shown spells the elements -/

/-- Elements behind others are shown with a point in front, unless they start with an index. -/
theorem Path.Spells.renderTail {text : List Char} {before es : List Element}
    (h : Spells IsShort text before) (filled : text ≠ []) (all : ∀ e ∈ es, e.Expressible) :
    Spells IsShort (text ++ (Path.renderTail es).toList) (before ++ es) := by
  induction es generalizing text before with
  | nil => simpa [Path.renderTail] using h
  | cons e es ih =>
    obtain ⟨here, later⟩ := List.forall_mem_cons.mp all
    have spelled := here.spells
    cases e with
    | field name =>
      have behind := ih (h.point spelled filled here.text_ne_nil) (by simp) later
      simpa [Path.renderTail, Element.text] using behind
    | index n =>
      rw [toList_index] at spelled
      have behind := ih (h.glue spelled filled) (by simp) later
      simpa [Path.renderTail, toList_index] using behind

/-- Elements that can be expressed are spelled by what shows them. -/
theorem spells_render {es : List Element} (all : ∀ e ∈ es, e.Expressible) :
    Spells IsShort (Path.renderElements es).toList es := by
  cases es with
  | nil => exact .root
  | cons e es =>
    obtain ⟨here, later⟩ := List.forall_mem_cons.mp all
    rw [Path.renderElements, String.toList_append]
    exact here.spells.renderTail here.text_ne_nil later

/-! ## What is spelled can be shown -/

/-- The numeral of what a short run of digits is worth is short, as zeros in front are left out. -/
theorem isWritable_value {digits : List Char} (number : Path.isNumber digits = true)
    (short : IsShort digits) : Numeral.isWritable (Numeral.value digits) = true := by
  simp only [Path.isNumber, Bool.and_eq_true, List.all_eq_true, Bool.not_eq_true',
    List.isEmpty_eq_false_iff] at number
  have small : Numeral.value digits < 10 ^ digits.length := Numeral.value_lt number.2
  exact Numeral.isWritable_iff.mpr (small.trans_le (Nat.pow_le_pow_right (by decide) short))

theorem Path.Segment.expressible {s : Path.Segment} (proper : s.Proper)
    (short : ∀ d ∈ s.indexes, IsShort d) : ∀ e ∈ s.elements, e.Expressible := by
  intro e mem
  rcases List.mem_append.mp mem with named | indexed
  · split at named
    · cases named
    · rename_i filled
      obtain rfl := List.mem_singleton.mp named
      exact ⟨by simpa using filled, by simpa using proper.plain⟩
  · obtain ⟨d, inside, rfl⟩ := List.mem_map.mp indexed
    exact isWritable_value (proper.digits d inside) (short d inside)

/-- Elements that a text spells can be expressed. -/
theorem expressible_of_spells {text : List Char} {es : List Element}
    (h : Spells IsShort text es) : ∀ e ∈ es, e.Expressible := by
  induction h with
  | root => simp
  | segment proper short => exact Path.Segment.expressible proper short
  | cons proper short _ _ ih =>
    exact List.forall_mem_append.mpr ⟨Path.Segment.expressible proper short, ih⟩

/-! ## Showing and reading -/

theorem read_of_expressible {es : List Element} (all : ∀ e ∈ es, e.Expressible) :
    Path.read (Path.renderElements es) = .ok ⟨es, Path.renderElements es⟩ :=
  Path.read_eq_ok_iff.mpr ⟨rfl, spells_render all⟩

theorem read_name {name : String} (plain : (Element.field name).Expressible) :
    Path.read name = .ok ⟨[.field name], name⟩ :=
  Path.read_eq_ok_iff.mpr ⟨rfl, plain.spells⟩

theorem expressible_of_read {text : String} {p : Path} (h : Path.read text = .ok p) :
    ∀ e ∈ p.elements, e.Expressible :=
  expressible_of_spells (Path.read_eq_ok_iff.mp h).2

/-- **Showing and reading are inverse.** Elements that path notation can express are read back from
the text that shows them. So the elements of two paths that were read are the same if the paths are
shown alike; and a path that was read is shown in a canonical form, which is read as the same
elements and shown as itself. -/
theorem read_render :
    (∀ p : Path, (∀ e ∈ p.elements, e.Expressible) →
      Path.read p.render = .ok ⟨p.elements, p.render⟩) ∧
    (∀ (s t : String) (p q : Path), Path.read s = .ok p → Path.read t = .ok q →
      p.render = q.render → p.elements = q.elements) ∧
    ∀ (s : String) (p : Path), Path.read s = .ok p →
      ∃ p', Path.read p.render = .ok p' ∧ p'.elements = p.elements ∧ p'.render = p.render := by
  refine ⟨fun p all => read_of_expressible all, ?_, ?_⟩
  · intro s t p q first second same
    have back := read_of_expressible (expressible_of_read first)
    have back' := read_of_expressible (expressible_of_read second)
    rw [show Path.renderElements p.elements = Path.renderElements q.elements from same, back']
      at back
    simpa using (Except.ok.inj back).symm
  · intro s p h
    exact ⟨_, read_of_expressible (expressible_of_read h), rfl, rfl⟩

/-- A point in front of an index and zeros in front of a position are not shown. -/
theorem read_render_zeros :
    ∃ p p', Path.read "a.[2][007].b" = .ok p ∧ p.render = "a[2][7].b" ∧
      Path.read "a[2][7].b" = .ok p' ∧ p'.elements = p.elements ∧ p'.render = p.render := by
  have read : Path.read "a.[2][007].b" =
      .ok ⟨[.field "a", .index 2, .index 7, .field "b"], "a.[2][007].b"⟩ := by decide
  obtain ⟨p', back, same, shown⟩ := read_render.2.2 _ _ read
  exact ⟨_, p', read, by decide, back, same, shown⟩

end Recast
