import Recast.Path.Reader

/-!
Path notation. A text spells elements when it is made of segments with points between them, each a
name or runs of digits in brackets or both (`Path.Spells`).

* `readElements_eq_ok_iff`: a text is read as the elements that it spells, when its runs of digits
  are short enough to be read;
* `Spells.point`, `Spells.glue`: texts that are joined spell the elements of both.
-/

namespace Recast.Path

open Text

/-! ## Segments -/

/-- A name, which may be missing, and runs of digits in brackets. -/
structure Segment where
  name : List Char
  indexes : List (List Char)

namespace Segment

def bracketed (digits : List Char) : List Char := '[' :: (digits ++ [']'])

def text (s : Segment) : List Char := s.name ++ s.indexes.flatMap bracketed

def elements (s : Segment) : List Element :=
  (if s.name.isEmpty then [] else [.field (String.ofList s.name)]) ++
    s.indexes.map fun digits => .index (Numeral.value digits)

/-- A segment is in path notation: it is not empty, its name is free of points and brackets, and
between brackets there are digits. -/
structure Proper (s : Segment) : Prop where
  filled : s.name ≠ [] ∨ s.indexes ≠ []
  plain : ∀ c ∈ s.name, c ≠ '.' ∧ c ≠ '[' ∧ c ≠ ']'
  digits : ∀ d ∈ s.indexes, isNumber d = true

end Segment

/-- A text spells elements: none if it is empty, and otherwise those of its segments, in order.
What is asked of runs of digits is a parameter. -/
inductive Spells (fits : List Char → Prop) : List Char → List Element → Prop where
  | root : Spells fits [] []
  | segment {s : Segment} (proper : s.Proper) (short : ∀ d ∈ s.indexes, fits d) :
      Spells fits s.text s.elements
  | cons {s : Segment} {text : List Char} {elements : List Element} (proper : s.Proper)
      (short : ∀ d ∈ s.indexes, fits d) (filled : text ≠ []) (rest : Spells fits text elements) :
      Spells fits (s.text ++ '.' :: text) (s.elements ++ elements)

/-- Runs of digits that are not too long to be read. -/
def IsShort (digits : List Char) : Prop := digits.length ≤ Numeral.limit

theorem ne_of_isNumber {digits : List Char} (h : isNumber digits = true) {c : Char}
    (mem : c ∈ digits) : c ≠ '.' ∧ c ≠ '[' ∧ c ≠ ']' := by
  have digit : c.isDigit = true := by
    simp only [isNumber, Bool.and_eq_true, List.all_eq_true] at h
    exact h.2 c mem
  refine ⟨?_, ?_, ?_⟩ <;> rintro rfl <;> revert digit <;> decide

namespace Segment

theorem text_ne_nil {s : Segment} (proper : s.Proper) : s.text ≠ [] := by
  intro empty
  simp only [text, List.append_eq_nil_iff, List.flatMap_eq_nil_iff] at empty
  rcases proper.filled with named | indexed
  · exact named empty.1
  · obtain ⟨d, mem⟩ := List.exists_mem_of_ne_nil _ indexed
    have blank := empty.2 d mem
    simp [bracketed] at blank

theorem not_mem_text {s : Segment} (proper : s.Proper) : '.' ∉ s.text := by
  simp only [text, List.mem_append, List.mem_flatMap, bracketed]
  rintro (named | ⟨d, mem, here⟩)
  · exact (proper.plain _ named).1 rfl
  · simp only [List.mem_cons, List.mem_append, List.not_mem_nil, or_false] at here
    rcases here with here | here | here
    · revert here; decide
    · exact (ne_of_isNumber (proper.digits d mem) here).1 rfl
    · revert here; decide

end Segment

/-! ## Reading indexes -/

theorem readPosition_eq_ok_iff {token : List Char} {n : Nat} :
    readPosition token = .ok n ↔
      isNumber token = true ∧ IsShort token ∧ n = Numeral.value token := by
  unfold readPosition IsShort
  split
  · rename_i nested
    have mem : '[' ∈ token := by simpa using nested
    constructor
    · intro h
      cases h
    · rintro ⟨number, _, _⟩
      exact absurd rfl (ne_of_isNumber number mem).2.1
  · split
    · rename_i number
      unfold Numeral.read
      by_cases short : token.length ≤ Numeral.limit
      · simp [number, short, eq_comm]
      · simp [short]
    · rename_i number
      simp only [number, Bool.false_eq_true, false_and, iff_false]
      split
      · split <;> simp
      · simp

/-- Inside brackets everything up to the closing one belongs to the token. -/
theorem readIndexes_token (acc token rest : List Char) (inside : ']' ∉ token) :
    readIndexes (some acc) (token ++ ']' :: rest) = do
      let position ← readPosition (acc.reverse ++ token)
      let others ← readIndexes none rest
      return .index position :: others := by
  induction token generalizing acc with
  | nil => simp [readIndexes]
  | cons c token ih =>
    simp only [List.mem_cons, not_or] at inside
    rw [List.cons_append, readIndexes, if_neg (Ne.symm inside.1), ih _ inside.2]
    simp

theorem exists_close {acc cs : List Char} {es : List Element}
    (h : readIndexes (some acc) cs = .ok es) : ∃ token rest, cs = token ++ ']' :: rest ∧
      ']' ∉ token := by
  induction cs generalizing acc with
  | nil => cases h
  | cons c cs ih =>
    by_cases close : c = ']'
    · exact ⟨[], cs, by simp [close], by simp⟩
    · rw [readIndexes, if_neg close] at h
      obtain ⟨token, rest, rfl, inside⟩ := ih h
      exact ⟨c :: token, rest, rfl, by simp [inside, Ne.symm close]⟩

/-- Indexes are runs of digits in brackets, one behind the other. -/
theorem readIndexes_eq_ok_iff {cs : List Char} {es : List Element} :
    readIndexes none cs = .ok es ↔ ∃ tokens : List (List Char),
      (∀ d ∈ tokens, isNumber d = true ∧ IsShort d) ∧
        cs = tokens.flatMap Segment.bracketed ∧
        es = tokens.map fun d => .index (Numeral.value d) := by
  constructor
  · intro h
    -- The text left after an index is shorter.
    induction length : cs.length using Nat.strongRecOn generalizing cs es with
    | ind length ih =>
    cases cs with
    | nil =>
      cases h
      exact ⟨[], by simp, rfl, rfl⟩
    | cons c cs =>
      rw [readIndexes] at h
      split at h
      · rename_i bracket
        subst c
        obtain ⟨token, rest, rfl, inside⟩ := exists_close h
        rw [readIndexes_token [] token rest inside] at h
        obtain ⟨n, position, h⟩ := bind_eq_ok.mp h
        obtain ⟨others, more, h⟩ := bind_eq_ok.mp h
        cases h
        obtain ⟨number, short, rfl⟩ := readPosition_eq_ok_iff.mp position
        obtain ⟨tokens, all, rfl, rfl⟩ := ih rest.length (by simp at length; omega) more rfl
        refine ⟨token :: tokens, List.forall_mem_cons.mpr ⟨⟨number, short⟩, all⟩, ?_, rfl⟩
        simp [Segment.bracketed]
      · cases h
  · rintro ⟨tokens, all, rfl, rfl⟩
    induction tokens with
    | nil => rfl
    | cons d tokens ih =>
      obtain ⟨⟨number, short⟩, all⟩ := List.forall_mem_cons.mp all
      have inside : ']' ∉ d := fun mem => (ne_of_isNumber number mem).2.2 rfl
      have position : readPosition d = .ok (Numeral.value d) :=
        readPosition_eq_ok_iff.mpr ⟨number, short, rfl⟩
      simp only [List.flatMap_cons, Segment.bracketed, List.cons_append, List.append_assoc,
        readIndexes, if_pos, List.nil_append]
      rw [readIndexes_token [] d _ inside]
      simp only [List.reverse_nil, List.nil_append, position, ok_bind, ih all]
      rfl

/-! ## Reading segments -/

theorem bracketed_head (tokens : List (List Char)) :
    tokens.flatMap Segment.bracketed = [] ∨
      ∃ rest, tokens.flatMap Segment.bracketed = '[' :: rest := by
  cases tokens with
  | nil => exact Or.inl rfl
  | cons d tokens => exact Or.inr ⟨_, rfl⟩

theorem takeWhile_text {s : Segment} (proper : s.Proper) :
    s.text.takeWhile (· ≠ '[') = s.name ∧
      s.text.dropWhile (· ≠ '[') = s.indexes.flatMap Segment.bracketed := by
  have named : ∀ c ∈ s.name, (decide (c ≠ '[')) = true := fun c mem => by
    simpa using (proper.plain c mem).2.1
  rw [Segment.text, List.takeWhile_append_of_pos named, List.dropWhile_append_of_pos named]
  rcases bracketed_head s.indexes with blank | ⟨rest, indexed⟩
  · simp [blank]
  · simp [indexed]

/-- A segment is read as the elements that it spells. -/
theorem readSegment_eq_ok_iff {cs : List Char} {es : List Element} (inside : '.' ∉ cs) :
    readSegment cs = .ok es ↔ ∃ s : Segment, s.Proper ∧
      (∀ d ∈ s.indexes, IsShort d) ∧ cs = s.text ∧ es = s.elements := by
  constructor
  · intro h
    simp only [readSegment] at h
    split at h
    · cases h
    · rename_i filled
      split at h
      · cases h
      · rename_i unopened
        obtain ⟨indexes, read, h⟩ := bind_eq_ok.mp h
        obtain ⟨tokens, all, indexed, rfl⟩ := readIndexes_eq_ok_iff.mp read
        have split : cs.takeWhile (· ≠ '[') ++ tokens.flatMap Segment.bracketed = cs := by
          rw [← indexed, List.takeWhile_append_dropWhile]
        have noPoint : '.' ∉ cs.takeWhile (· ≠ '[') := fun mem =>
          inside (List.takeWhile_subset _ mem)
        have noBracket : ∀ c ∈ cs.takeWhile (· ≠ '['), c ≠ '[' := fun c mem => by
          simpa using List.all_eq_true.mp List.all_takeWhile c mem
        rw [pure_eq, Except.ok.injEq] at h
        generalize cs.takeWhile (· ≠ '[') = name at *
        refine ⟨⟨name, tokens⟩, ⟨?_, fun c mem => ⟨?_, noBracket c mem, ?_⟩,
          fun d mem => (all d mem).1⟩, fun d mem => (all d mem).2, split.symm, ?_⟩
        · by_cases unnamed : name = []
          · refine Or.inr fun unindexed => filled ?_
            have blank : tokens = [] := unindexed
            simp [← split, unnamed, blank]
          · exact Or.inl unnamed
        · rintro rfl
          exact noPoint mem
        · rintro rfl
          exact unopened (by simpa using mem)
        · subst h
          cases unnamed : name.isEmpty <;> simp [Segment.elements, unnamed]
  · rintro ⟨s, proper, short, rfl, rfl⟩
    obtain ⟨named, indexed⟩ := takeWhile_text proper
    have filled : s.text.isEmpty = false := by simpa using Segment.text_ne_nil proper
    have unopened : s.name.contains ']' = false := by
      simpa using fun mem => (proper.plain _ mem).2.2 rfl
    have read := readIndexes_eq_ok_iff.mpr
      ⟨s.indexes, fun d mem => ⟨proper.digits d mem, short d mem⟩, rfl, rfl⟩
    simp only [readSegment, filled, named, unopened, indexed, read, ok_bind, Bool.false_eq_true,
      if_false, pure_eq]
    cases blank : s.name.isEmpty <;> simp [Segment.elements, blank]

/-! ## Reading texts -/

theorem splitOn_eq (separator : Char) (cs : List Char) :
    splitOn separator cs = cs.splitOn separator := by
  induction cs with
  | nil => rfl
  | cons c cs ih =>
    rw [splitOn, List.splitOn_cons_eq_if_modifyHead, ih]
    cases pieces : cs.splitOn separator with
    | nil => exact absurd pieces (List.splitOn_ne_nil separator cs)
    | cons piece pieces => simp

theorem not_mem_of_mem_splitOn {separator : Char} {cs piece : List Char}
    (h : piece ∈ splitOn separator cs) : separator ∉ piece := by
  induction cs generalizing piece with
  | nil =>
    obtain rfl := List.mem_singleton.mp h
    simp
  | cons c cs ih =>
    rw [splitOn] at h
    split at h
    · rename_i first pieces split
      rw [split] at ih
      split at h
      · rcases List.mem_cons.mp h with rfl | h
        · simp
        · exact ih h
      · rename_i other
        rcases List.mem_cons.mp h with rfl | h
        · simp [ih List.mem_cons_self, Ne.symm other]
        · exact ih (List.mem_cons_of_mem _ h)
    · rename_i split
      rw [splitOn_eq] at split
      exact absurd split (List.splitOn_ne_nil separator cs)

theorem spells_of_mapM {pieces : List (List Char)} {ess : List (List Element)}
    (inside : ∀ piece ∈ pieces, '.' ∉ piece) (filled : pieces ≠ [])
    (h : pieces.mapM readSegment = .ok ess) :
    Spells IsShort (['.'].intercalate pieces) ess.flatten ∧ ['.'].intercalate pieces ≠ [] := by
  induction pieces generalizing ess with
  | nil => exact absurd rfl filled
  | cons piece pieces ih =>
    obtain ⟨first, later⟩ := List.forall_mem_cons.mp inside
    rw [List.mapM_cons] at h
    obtain ⟨es, read, h⟩ := bind_eq_ok.mp h
    obtain ⟨others, more, h⟩ := bind_eq_ok.mp h
    cases h
    obtain ⟨s, proper, short, rfl, rfl⟩ := (readSegment_eq_ok_iff first).mp read
    cases pieces with
    | nil =>
      cases more
      simpa using ⟨Spells.segment proper short, Segment.text_ne_nil proper⟩
    | cons next pieces =>
      obtain ⟨rest, filled⟩ := ih later (by simp) more
      have spelled := Spells.cons proper short filled rest
      simpa [List.intercalate, List.intersperse] using spelled

theorem Spells.mapM {text : List Char} {es : List Element} (h : Spells IsShort text es)
    (filled : text ≠ []) :
    ∃ ess, (splitOn '.' text).mapM readSegment = .ok ess ∧ es = ess.flatten := by
  induction h with
  | root => exact absurd rfl filled
  | @segment s proper short =>
    have inside := Segment.not_mem_text proper
    have read := (readSegment_eq_ok_iff inside).mpr ⟨s, proper, short, rfl, rfl⟩
    refine ⟨[s.elements], ?_, by simp⟩
    rw [splitOn_eq, List.splitOn_eq_singleton inside]
    simp [read]
  | @cons s text es proper short more _ ih =>
    obtain ⟨ess, others, rfl⟩ := ih more
    have inside := Segment.not_mem_text proper
    have read := (readSegment_eq_ok_iff inside).mpr ⟨s, proper, short, rfl, rfl⟩
    refine ⟨s.elements :: ess, ?_, by simp⟩
    rw [splitOn_eq] at others ⊢
    rw [List.splitOn_append_cons_self_of_not_mem inside, List.mapM_cons, read, others]
    rfl

/-- **Reading accepts path notation.** A text is read as the elements that it spells. -/
theorem readElements_eq_ok_iff {text : List Char} {es : List Element} :
    readElements text = .ok es ↔ Spells IsShort text es := by
  unfold readElements
  cases blank : text with
  | nil =>
    constructor
    · intro h
      cases h
      exact .root
    · intro h
      generalize empty : ([] : List Char) = t at h
      cases h with
      | root => rfl
      | segment proper _ => exact absurd empty.symm (Segment.text_ne_nil proper)
      | cons => simp at empty
  | cons c cs =>
    rw [← blank]
    have filled : text ≠ [] := by simp [blank]
    have unblank : text.isEmpty = false := by simpa using filled
    simp only [unblank, Bool.false_eq_true, if_false]
    constructor
    · intro h
      obtain ⟨ess, read, rfl⟩ := map_eq_ok.mp h
      have pieces : splitOn '.' text ≠ [] := by
        rw [splitOn_eq]
        exact List.splitOn_ne_nil '.' text
      have spelled := (spells_of_mapM (fun _ => not_mem_of_mem_splitOn) pieces read).1
      rwa [splitOn_eq, List.intercalate_splitOn] at spelled
    · intro h
      obtain ⟨ess, read, rfl⟩ := h.mapM filled
      rw [read]
      rfl

/-- The names that a text spells are free of points and brackets. -/
theorem Spells.plain_of_mem {fits : List Char → Prop} {text : List Char} {es : List Element}
    (h : Spells fits text es) {name : String} (mem : .field name ∈ es) :
    ∀ c ∈ name.toList, c ≠ '.' ∧ c ≠ '[' ∧ c ≠ ']' := by
  have plain : ∀ {s : Segment}, s.Proper → .field name ∈ s.elements →
      ∀ c ∈ name.toList, c ≠ '.' ∧ c ≠ '[' ∧ c ≠ ']' := by
    intro s proper mem
    simp only [Segment.elements, List.mem_append, List.mem_map, reduceCtorEq, and_false,
      exists_false, or_false] at mem
    split at mem
    · cases mem
    · obtain rfl := Element.field.inj (List.mem_singleton.mp mem)
      simpa using proper.plain
  induction h with
  | root => cases mem
  | segment proper _ => exact plain proper mem
  | cons proper _ _ _ ih => exact (List.mem_append.mp mem).elim (plain proper) ih

theorem read_eq_ok_iff {text : String} {p : Path} :
    read text = .ok p ↔ p.raw = text ∧ Spells IsShort text.toList p.elements := by
  obtain ⟨elements, raw⟩ := p
  rw [← readElements_eq_ok_iff, read]
  cases readElements text.toList with
  | ok es =>
    simp only [Except.ok.injEq, mk.injEq]
    exact ⟨fun ⟨same, written⟩ => ⟨written.symm, same⟩, fun ⟨written, same⟩ => ⟨same, written.symm⟩⟩
  | error refusal => cases refusal <;> simp

/-! ## Joining texts -/

section
variable {fits : List Char → Prop} {t u : List Char} {es fs : List Element}

/-- A text behind a point spells on. -/
theorem Spells.point (h : Spells fits t es) (h' : Spells fits u fs) (ht : t ≠ []) (hu : u ≠ []) :
    Spells fits (t ++ '.' :: u) (es ++ fs) := by
  induction h with
  | root => exact absurd rfl ht
  | segment proper short => exact .cons proper short hu h'
  | cons proper short filled _ ih =>
    rw [List.append_assoc, List.append_assoc]
    exact .cons proper short (by simp) (ih filled)

/-- A segment with the indexes of another behind its own. -/
def Segment.join (s s' : Segment) : Segment := ⟨s.name, s.indexes ++ s'.indexes⟩

theorem Segment.name_of_bracket {s : Segment} (proper : s.Proper) {rest : List Char}
    (h : s.text ++ rest = '[' :: u) : s.name = [] := by
  cases named : s.name with
  | nil => rfl
  | cons c name =>
    rw [text, named] at h
    obtain rfl : c = '[' := (List.cons.inj h).1
    exact absurd rfl (proper.plain '[' (by simp [named])).2.1

theorem Segment.join_proper {s s' : Segment} (proper : s.Proper) (proper' : s'.Proper) :
    (s.join s').Proper where
  filled := proper.filled.imp_right fun indexed => by simp [join, indexed]
  plain := proper.plain
  digits d mem := (List.mem_append.mp mem).elim (proper.digits d) (proper'.digits d)

theorem Segment.text_join {s s' : Segment} (unnamed : s'.name = []) :
    (s.join s').text = s.text ++ s'.text := by
  simp [text, join, unnamed]

theorem Segment.elements_join {s s' : Segment} (unnamed : s'.name = []) :
    (s.join s').elements = s.elements ++ s'.elements := by
  simp [elements, join, unnamed]

/-- A text that starts with an index spells on without a point. -/
theorem Spells.glue (h : Spells fits t es) (h' : Spells fits ('[' :: u) fs) (ht : t ≠ []) :
    Spells fits (t ++ '[' :: u) (es ++ fs) := by
  induction h with
  | root => exact absurd rfl ht
  | @segment s proper short =>
    generalize start : '[' :: u = w at h'
    cases h' with
    | root => cases start
    | @segment s' proper' short' =>
      have unnamed : s'.name = [] :=
        Segment.name_of_bracket proper' ((List.append_nil _).trans start.symm)
      rw [← Segment.text_join unnamed, ← Segment.elements_join unnamed]
      exact .segment (Segment.join_proper proper proper') (List.forall_mem_append.mpr ⟨short, short'⟩)
    | @cons s' text _ proper' short' filled rest =>
      have unnamed : s'.name = [] := Segment.name_of_bracket proper' start.symm
      rw [← List.append_assoc, ← List.append_assoc, ← Segment.text_join unnamed,
        ← Segment.elements_join unnamed]
      exact .cons (Segment.join_proper proper proper')
        (List.forall_mem_append.mpr ⟨short, short'⟩) filled rest
  | cons proper short filled _ ih =>
    rw [List.append_assoc, List.append_assoc]
    exact .cons proper short (by simp [filled]) (ih filled)

/-- What is asked of the digits of each index that is spelled may be exchanged. -/
theorem Spells.imp {fits' : List Char → Prop} (h : Spells fits t es)
    (imp : ∀ digits, .index (Numeral.value digits) ∈ es → fits digits → fits' digits) :
    Spells fits' t es := by
  have short : ∀ {s : Segment}, (∀ d ∈ s.indexes, fits d) →
      (∀ d, .index (Numeral.value d) ∈ s.elements → fits d → fits' d) →
      ∀ d ∈ s.indexes, fits' d := by
    intro s all imp d mem
    exact imp d (by simp only [Segment.elements, List.mem_append, List.mem_map]
                    exact Or.inr ⟨d, mem, rfl⟩) (all d mem)
  induction h with
  | root => exact .root
  | segment proper all => exact .segment proper (short all imp)
  | cons proper all filled _ ih =>
    refine .cons proper (short all fun d mem => imp d (List.mem_append_left _ mem)) filled ?_
    exact ih fun d mem => imp d (List.mem_append_right _ mem)

end

end Recast.Path
