import Recast.Proofs.Notation

/-!
Texts that spell no path. A text is refused for a reason that is found in it: it is not in path
notation, or it has a run of digits in brackets that is too long to be read (`Refusal.Explains`).

* `explains_of_readElements`: every refusal has its reason in the text;
* `read_accepts_grammar`: without such runs of digits the texts that are read are those in path
  notation, and every other text is refused as a malformed path.
-/

namespace Recast.Path

open Text

/-- The reason for refusing a text is found in it. -/
def Refusal.Explains (text : List Char) : Refusal → Prop
  | .cause c => c.kind = .malformedPath
  | .numeralTooLong _ =>
    ∃ digits, isNumber digits = true ∧ ¬ IsShort digits ∧ Segment.bracketed digits <:+: text

theorem Refusal.Explains.of_within {part text : List Char} {r : Refusal} (h : r.Explains part)
    (inside : part <:+: text) : r.Explains text := by
  cases r with
  | cause cause => exact h
  | numeralTooLong n =>
    obtain ⟨digits, number, long, bracketed⟩ := h
    exact ⟨digits, number, long, bracketed.trans inside⟩

/-! ## Refused indexes -/

theorem explains_of_readPosition {token : List Char} {r : Refusal}
    (h : readPosition token = .error r) : r.Explains (Segment.bracketed token) := by
  unfold readPosition at h
  split at h
  · cases h
    rfl
  · split at h
    · rename_i number
      unfold Numeral.read at h
      by_cases short : token.length ≤ Numeral.limit
      · simp [short] at h
      · simp only [short, if_false, Except.error.injEq] at h
        subst h
        exact ⟨token, number, short, List.infix_rfl⟩
    · split at h
      · split at h <;> cases h <;> rfl
      · cases h
        rfl

/-- What is in front of the characters that are still to be read: inside brackets, the opening one
and the token so far. -/
def opened : Option (List Char) → List Char
  | none => []
  | some token => '[' :: token.reverse

theorem explains_of_readIndexes {token : Option (List Char)} {cs : List Char} {r : Refusal}
    (h : readIndexes token cs = .error r) : r.Explains (opened token ++ cs) := by
  induction cs generalizing token with
  | nil =>
    cases token with
    | none => cases h
    | some token =>
      cases h
      rfl
  | cons c cs ih =>
    cases token with
    | none =>
      rw [readIndexes] at h
      split at h
      · rename_i bracket
        subst bracket
        exact ih h
      · cases h
        rfl
    | some token =>
      rw [readIndexes] at h
      split at h
      · rename_i close
        subst close
        have whole : opened (some token) ++ ']' :: cs = Segment.bracketed token.reverse ++ cs := by
          simp [opened, Segment.bracketed]
        rw [whole]
        rcases bind_eq_error.mp h with refused | ⟨position, _, h⟩
        · exact (explains_of_readPosition refused).of_within (List.prefix_append _ _).isInfix
        · rcases bind_eq_error.mp h with refused | ⟨others, _, h⟩
          · exact (ih refused).of_within (List.suffix_append _ _).isInfix
          · cases h
      · have further : opened (some (c :: token)) ++ cs = opened (some token) ++ c :: cs := by
          simp [opened]
        rw [← further]
        exact ih h

/-! ## Refused texts -/

theorem explains_of_readSegment {segment : List Char} {r : Refusal}
    (h : readSegment segment = .error r) : r.Explains segment := by
  simp only [readSegment] at h
  split at h
  · cases h
    rfl
  · split at h
    · cases h
      rfl
    · rcases bind_eq_error.mp h with refused | ⟨indexes, _, h⟩
      · exact (explains_of_readIndexes refused).of_within (List.dropWhile_suffix _).isInfix
      · cases h

theorem within_of_mem_splitOn {separator : Char} {cs piece : List Char}
    (h : piece ∈ splitOn separator cs) : piece <:+: cs := by
  have joined : ∀ pieces : List (List Char), piece ∈ pieces →
      piece <:+: [separator].intercalate pieces := by
    intro pieces mem
    induction pieces with
    | nil => cases mem
    | cons first rest ih =>
      cases rest with
      | nil =>
        obtain rfl := List.mem_singleton.mp mem
        simp
      | cons next rest =>
        have split : [separator].intercalate (first :: next :: rest) =
            first ++ separator :: [separator].intercalate (next :: rest) := by
          simp [List.intercalate, List.intersperse]
        rw [split]
        rcases List.mem_cons.mp mem with rfl | mem
        · exact (List.prefix_append _ _).isInfix
        · have later : [separator].intercalate (next :: rest) <:+
              first ++ separator :: [separator].intercalate (next :: rest) :=
            (List.suffix_cons separator _).trans (List.suffix_append first _)
          exact (ih mem).trans later.isInfix
  have inside := joined _ h
  rwa [splitOn_eq, List.intercalate_splitOn] at inside

/-- **A text is refused for a reason that is found in it.** -/
theorem explains_of_readElements {text : List Char} {r : Refusal}
    (h : readElements text = .error r) : r.Explains text := by
  unfold readElements at h
  split at h
  · cases h
  · cases pieces : (splitOn '.' text).mapM readSegment with
    | ok ess =>
      rw [pieces] at h
      cases h
    | error refusal =>
      rw [pieces] at h
      cases h
      obtain ⟨piece, mem, refused⟩ := exists_of_mapM_error pieces
      exact (explains_of_readSegment refused).of_within (within_of_mem_splitOn mem)

/-! ## Texts without long runs of digits -/

/-- Every run of digits in brackets is short enough to be read. -/
def Readable (text : List Char) : Prop :=
  ∀ digits, isNumber digits = true → Segment.bracketed digits <:+: text → IsShort digits

theorem Readable.of_within {part text : List Char} (h : Readable text) (inside : part <:+: text) :
    Readable part :=
  fun digits number bracketed => h digits number (bracketed.trans inside)

theorem Segment.bracketed_within {s : Segment} {digits : List Char} (mem : digits ∈ s.indexes) :
    bracketed digits <:+: s.text := by
  obtain ⟨before, after, split⟩ := List.append_of_mem mem
  refine ⟨s.name ++ before.flatMap bracketed, after.flatMap bracketed, ?_⟩
  simp [text, split]

/-- In such a text nothing more has to be asked of the runs of digits. -/
theorem Spells.short {fits : List Char → Prop} {text : List Char} {es : List Element}
    (h : Spells fits text es) (readable : Readable text) : Spells IsShort text es := by
  have all : ∀ {s : Segment}, s.Proper → Readable s.text → ∀ d ∈ s.indexes, IsShort d :=
    fun proper readable d mem => readable d (proper.digits d mem) (Segment.bracketed_within mem)
  induction h with
  | root => exact .root
  | segment proper _ => exact .segment proper (all proper readable)
  | @cons s text es proper _ filled _ ih =>
    have first : s.text <:+: s.text ++ '.' :: text := (List.prefix_append _ _).isInfix
    have later : text <:+: s.text ++ '.' :: text :=
      ((List.suffix_cons '.' text).trans (List.suffix_append _ _)).isInfix
    exact .cons proper (all proper (readable.of_within first)) filled
      (ih (readable.of_within later))

theorem spells_iff_short {text : List Char} {es : List Element} (readable : Readable text) :
    Spells (fun _ => True) text es ↔ Spells IsShort text es :=
  ⟨fun h => h.short readable, fun h => h.imp fun _ _ _ => trivial⟩

/-- **Reading accepts exactly path notation.** Take a text in which no run of digits in brackets is
too long to be read. It is read as a path exactly when it is in path notation: when it is empty, or
made of segments with points between them, each a name or runs of digits in brackets or both. The
path has the elements that the text spells. Every other text is refused as a malformed path, and the
fault names the text. -/
theorem read_accepts_grammar (text : String) (readable : Readable text.toList) :
    (∀ p : Path, read text = .ok p ↔
      p.raw = text ∧ Spells (fun _ => True) text.toList p.elements) ∧
    ((∀ es, ¬ Spells (fun _ => True) text.toList es) →
      ∃ cause : Cause, cause.kind = .malformedPath ∧
        read text = .error (.ofCause cause (some text))) := by
  constructor
  · intro p
    rw [read_eq_ok_iff, spells_iff_short readable]
  · intro outside
    unfold read
    cases elements : readElements text.toList with
    | ok es =>
      have spelled := readElements_eq_ok_iff.mp elements
      exact absurd ((spells_iff_short readable).mpr spelled) (outside es)
    | error refusal =>
      have reason := explains_of_readElements elements
      cases refusal with
      | cause cause => exact ⟨cause, reason, rfl⟩
      | numeralTooLong n =>
        obtain ⟨digits, number, long, bracketed⟩ := reason
        exact absurd (readable digits number bracketed) long

/-- A name and an index behind another are in path notation, and a negative index is not. -/
theorem read_accepts_grammar_index :
    Readable "rows[12][0].name".toList ∧ Readable "rows[-1]".toList ∧
    Spells (fun _ => True) "rows[12][0].name".toList
      [.field "rows", .index 12, .index 0, .field "name"] ∧
    ∃ cause : Cause, cause.kind = .malformedPath ∧
      read "rows[-1]" = .error (.ofCause cause (some "rows[-1]")) := by
  have readable : ∀ text : List Char, text.length ≤ Numeral.limit → Readable text := by
    intro text short digits _ bracketed
    have inside := bracketed.length_le
    simp only [Segment.bracketed, List.length_cons, List.length_append] at inside
    unfold IsShort
    omega
  have first := readable "rows[12][0].name".toList (by decide)
  have second := readable "rows[-1]".toList (by decide)
  have read_first : read "rows[12][0].name" =
      .ok ⟨[.field "rows", .index 12, .index 0, .field "name"], "rows[12][0].name"⟩ := by decide
  refine ⟨first, second, ((read_accepts_grammar _ first).1 _).mp read_first |>.2, ?_⟩
  refine (read_accepts_grammar _ second).2 fun es spelled => ?_
  have read_second := ((read_accepts_grammar _ second).1 ⟨es, "rows[-1]"⟩).mpr ⟨rfl, spelled⟩
  have refused : read "rows[-1]" = .error (.ofCause (.negativeIndex "-1") (some "rows[-1]")) := by
    decide
  cases read_second.symm.trans refused

end Recast.Path
