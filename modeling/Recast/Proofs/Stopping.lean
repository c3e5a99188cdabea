import Recast.Json.Check
import Recast.Proofs.RoundTrip

/-!
Where the reading of JSON text stops. A reader stays inside its text: what it leaves is the end of
the text, and when it stops, the reason is found in the text (`Json.Stop.Explains`), be it a place
where the text is at fault or a run of digits that is too long to be read.

* `explains_of_readWhole`: every stop has its reason in the text;
* `check_agrees_parse`: checking a text and parsing it come to the same verdict, and neither does
  without one unless there is such a run of digits.
-/

namespace Recast.Json

open Text

/-- A text holds a run of so many digits that it cannot be read. -/
def HoldsOverlong (text : List Char) (n : Nat) : Prop :=
  Numeral.limit < n ∧
    ∃ digits : List Char, digits.length = n ∧ (∀ d ∈ digits, d.isDigit = true) ∧ digits <:+: text

/-- The reason for stopping is found in the text. -/
def Stop.Explains (text : List Char) : Stop → Prop
  | .fault _ rest => rest <:+ text
  | .numeralTooLong n => HoldsOverlong text n

/-- A reader stays inside its text: what is left is the end of it, or the reason for stopping is
found in it. -/
def Inside {α : Type} (text : List Char) : Except Stop (α × List Char) → Prop
  | .ok (_, rest) => rest <:+ text
  | .error stop => stop.Explains text

theorem HoldsOverlong.of_within {part text : List Char} {n : Nat} (h : HoldsOverlong part n)
    (inside : part <:+: text) : HoldsOverlong text n := by
  obtain ⟨long, digits, length, all, within⟩ := h
  exact ⟨long, digits, length, all, within.trans inside⟩

theorem Stop.Explains.of_suffix {part text : List Char} {stop : Stop} (h : stop.Explains part)
    (suffix : part <:+ text) : stop.Explains text := by
  cases stop with
  | fault fault rest => exact List.IsSuffix.trans h suffix
  | numeralTooLong n => exact HoldsOverlong.of_within h suffix.isInfix

section
variable {α β : Type} {text : List Char}

theorem Inside.of_suffix {part : List Char} {x : Except Stop (α × List Char)} (h : Inside part x)
    (suffix : part <:+ text) : Inside text x := by
  cases x with
  | ok found => exact List.IsSuffix.trans h suffix
  | error stop => exact Stop.Explains.of_suffix h suffix

/-- A reader that goes on from where another inside the text left off stays inside it too. -/
theorem Inside.bind {x : Except Stop (α × List Char)}
    {f : α × List Char → Except Stop (β × List Char)}
    (h : Inside text x) (more : ∀ a rest, rest <:+ text → Inside text (f (a, rest))) :
    Inside text (x >>= f) := by
  cases x with
  | ok found => exact more found.1 found.2 h
  | error stop => exact h

theorem suffix_of_cons {c : Char} {rest : List Char} (h : c :: rest <:+ text) : rest <:+ text :=
  (List.suffix_cons c rest).trans h

theorem skipSpace_suffix (s : List Char) : skipSpace s <:+ s := List.dropWhile_suffix _

end

/-! ## Texts -/

theorem explains_of_readNumbered {s : List Char} {stop : Stop}
    (h : readNumbered s = .error stop) : stop.Explains ('u' :: s) := by
  unfold readNumbered at h
  split at h
  · rename_i a b c d next rest
    split at h
    · cases h
      exact List.suffix_rfl
    · split at h
      · split at h
        · cases h
          exact List.suffix_append ['u', a, b, c, d, '\\'] _
        · split at h <;> cases h
      · cases h
  · cases h
    exact List.suffix_rfl

theorem explains_of_readEscape {start s : List Char} {stop : Stop} (inside : '\\' :: s <:+ start)
    (h : readEscape start s = .error stop) : stop.Explains start := by
  unfold readEscape at h
  split at h
  · cases h
    exact List.suffix_rfl
  · exact (explains_of_readNumbered h).of_suffix (suffix_of_cons inside)
  · split at h <;> cases h
    exact inside

theorem inside_readText {start s : List Char} (skip : Nat) (before : List Char)
    (inside : s <:+ start) : Inside start (readText start skip before s) := by
  induction s generalizing skip before with
  | nil =>
    cases skip <;> exact List.suffix_rfl
  | cons c rest ih =>
    have further := suffix_of_cons inside
    cases skip with
    | succ skip => exact ih skip before further
    | zero =>
      rw [readText]
      split
      · exact further
      · split
        · rename_i backslash
          subst backslash
          split
          · exact ih _ _ further
          · rename_i refused
            exact explains_of_readEscape inside refused
        · split
          · exact inside
          · exact ih 0 _ further

/-! ## Numbers -/

/-- Digits in front of a text, and what is left of it. -/
def IsSpan (s : List Char) (found : List Char × List Char) : Prop :=
  (∀ d ∈ found.1, d.isDigit = true) ∧ found.1 ++ found.2 = s

theorem IsSpan.suffix {s : List Char} {found : List Char × List Char} (h : IsSpan s found) :
    found.2 <:+ s :=
  h.2 ▸ List.suffix_append found.1 found.2

theorem isSpan_spanDigits (s : List Char) : IsSpan s (spanDigits s) :=
  ⟨fun _ mem => List.all_eq_true.mp List.all_takeWhile _ mem, List.takeWhile_append_dropWhile⟩

theorem isSpan_wholePart (s : List Char) : IsSpan s (wholePart s) := by
  unfold wholePart
  split
  · exact ⟨List.forall_mem_singleton.mpr rfl, rfl⟩
  · exact isSpan_spanDigits s

theorem fractionPart_suffix (s : List Char) : (fractionPart s).2 <:+ s := by
  unfold fractionPart
  split
  · rename_i rest
    split
    · exact List.suffix_rfl
    · exact (List.dropWhile_suffix _).trans (List.suffix_cons '.' rest)
  · exact List.suffix_rfl

theorem exponentPart_suffix (s : List Char) : (exponentPart s).2 <:+ s := by
  unfold exponentPart
  split
  · rename_i e rest
    split
    · dsimp only
      split
      · exact List.suffix_rfl
      · rename_i digits after _ found
        have span : IsSpan _ (digits, after) := found ▸ isSpan_spanDigits _
        refine (span.suffix.trans ?_).trans (List.suffix_cons e rest)
        split
        · exact List.suffix_cons '-' _
        · exact List.suffix_cons '+' _
        · exact List.suffix_rfl
    · exact List.suffix_rfl
  · exact List.suffix_rfl

/-- A numeral is read inside the text that starts with its sign. -/
theorem inside_readNumber {start s : List Char} (negative : Bool) (inside : s <:+ start) :
    Inside start (readNumber start negative s) := by
  unfold readNumber
  split
  · exact List.suffix_rfl
  · rename_i whole rest _ found
    have span : IsSpan s (whole, rest) := found ▸ isSpan_wholePart s
    have within : whole <:+: start :=
      (span.2 ▸ List.prefix_append whole rest).isInfix.trans inside.isInfix
    have after : (exponentPart (fractionPart rest).2).2 <:+ start :=
      ((exponentPart_suffix _).trans (fractionPart_suffix _)).trans (span.suffix.trans inside)
    dsimp only
    split
    · unfold Numeral.read
      by_cases short : whole.length ≤ Numeral.limit
      · rw [if_pos short]
        exact after
      · rw [if_neg short]
        exact ⟨Nat.lt_of_not_le short, whole, rfl, span.1, within⟩
    · exact after

theorem inside_readScalar (s : List Char) : Inside s (readScalar s) := by
  unfold readScalar
  split
  · exact List.suffix_append ['n', 'u', 'l', 'l'] _
  · exact List.suffix_append ['t', 'r', 'u', 'e'] _
  · exact List.suffix_append ['f', 'a', 'l', 's', 'e'] _
  · exact List.suffix_append ['N', 'a', 'N'] _
  · exact List.suffix_append ['I', 'n', 'f', 'i', 'n', 'i', 't', 'y'] _
  · exact List.suffix_append ['-', 'I', 'n', 'f', 'i', 'n', 'i', 't', 'y'] _
  · exact inside_readNumber true (List.suffix_cons '-' _)
  · exact inside_readNumber false List.suffix_rfl

/-! ## Values -/

mutual

/-- **Reading a value stays inside the text.** -/
theorem inside_readValue : (fuel : Nat) → (s : List Char) → Inside s (readValue fuel s)
  | 0, _ => List.suffix_rfl
  | fuel + 1, s => by
    -- Each reader is handed an end of its caller's text, so it stays inside that one too.
    unfold readValue
    split
    · rename_i rest
      exact (inside_readText 0 [] (List.suffix_cons '"' rest)).bind fun _ _ left => left
    · rename_i rest
      split
      · rename_i found
        exact (suffix_of_cons (found ▸ skipSpace_suffix rest)).trans (List.suffix_cons '[' rest)
      · refine Inside.bind ?_ fun _ _ left => left
        exact (inside_readItems fuel _).of_suffix
          ((skipSpace_suffix rest).trans (List.suffix_cons '[' rest))
    · rename_i rest
      split
      · rename_i found
        exact (suffix_of_cons (found ▸ skipSpace_suffix rest)).trans (List.suffix_cons _ rest)
      · refine Inside.bind ?_ fun _ _ left => left
        exact (inside_readFields fuel _).of_suffix
          ((skipSpace_suffix rest).trans (List.suffix_cons _ rest))
    · exact inside_readScalar s

theorem inside_readItems : (fuel : Nat) → (s : List Char) → Inside s (readItems fuel s)
  | 0, _ => List.suffix_rfl
  | fuel + 1, s => by
    unfold readItems
    refine (inside_readValue fuel s).bind fun item rest left => ?_
    have spaced := (skipSpace_suffix rest).trans left
    dsimp only
    split
    · rename_i found
      exact suffix_of_cons (found ▸ spaced)
    · rename_i rest' found
      have further := (skipSpace_suffix rest').trans (suffix_of_cons (found ▸ spaced))
      exact ((inside_readItems fuel _).of_suffix further).bind fun _ _ left => left
    · exact spaced

theorem inside_readFields : (fuel : Nat) → (s : List Char) → Inside s (readFields fuel s)
  | 0, _ => List.suffix_rfl
  | fuel + 1, s => by
    unfold readFields
    split
    · rename_i rest
      refine (inside_readText 0 [] (List.suffix_cons '"' rest)).bind fun name rest left => ?_
      have spaced := (skipSpace_suffix rest).trans left
      dsimp only
      split
      · rename_i rest' found
        have further := (skipSpace_suffix rest').trans (suffix_of_cons (found ▸ spaced))
        refine ((inside_readValue fuel _).of_suffix further).bind fun value rest left => ?_
        have spaced := (skipSpace_suffix rest).trans left
        dsimp only
        split
        · rename_i found
          exact suffix_of_cons (found ▸ spaced)
        · rename_i rest' found
          have further := (skipSpace_suffix rest').trans (suffix_of_cons (found ▸ spaced))
          exact ((inside_readFields fuel _).of_suffix further).bind fun _ _ left => left
        · exact spaced
      · exact spaced
    · exact List.suffix_rfl

end

/-! ## Whole texts -/

/-- **Every stop has its reason in the text.** -/
theorem explains_of_readWhole {s : List Char} {stop : Stop} (h : readWhole s = .error stop) :
    stop.Explains s := by
  unfold readWhole at h
  split at h
  · cases h
    exact List.suffix_rfl
  · have value := (inside_readValue (2 * s.length + 2) (skipSpace s)).of_suffix (skipSpace_suffix s)
    rcases bind_eq_error.mp h with stopped | ⟨⟨v, rest⟩, read, h⟩
    · rw [stopped] at value
      exact value
    · rw [read] at value
      dsimp only at h
      split at h
      · cases h
      · cases h
        exact (skipSpace_suffix rest).trans value

/-- The reason why a text cannot be read is found in it. -/
def ReadFault.Explains (text : List Char) : ReadFault → Prop
  | .syntaxFault _ place => ∃ before rest, text = before ++ rest ∧ place = .after before
  | .numeralTooLong n => HoldsOverlong text n

theorem explains_of_read {text : String} {fault : ReadFault} (h : read text = .error fault) :
    fault.Explains text.toList := by
  simp only [read] at h
  split at h
  · cases h
  · rename_i stopped
    cases h
    obtain ⟨before, split⟩ : _ <:+ text.toList := explains_of_readWhole stopped
    refine ⟨before, _, split.symm, ?_⟩
    simp [← split]
  · rename_i stopped
    cases h
    exact explains_of_readWhole stopped

/-! ## Checking and parsing -/

/-- An issue that lies at a place in a text. -/
def LiesIn (text : List Char) (location : String) : Prop :=
  ∃ before rest, text = before ++ rest ∧
    location = s!"line {(Place.after before).line}, column {(Place.after before).column}"

/-- What checking a text can come to. -/
theorem verdict_of_check (text : String) :
    (∃ v, read text = .ok v ∧ check (.string text) = .ok { warnings := nestingWarnings v }) ∨
    (∃ message location, check (.string text) = .ok (.ofIssue .syntaxError message location) ∧
      (isBlankText text = true ∨ LiesIn text.toList location)) ∨
    ∃ n, HoldsOverlong text.toList n ∧ check (.string text) = .error (.numeralTooLong n) := by
  rw [check]
  by_cases blank : isBlankText text = true
  · rw [if_pos blank]
    exact Or.inr (Or.inl ⟨_, _, rfl, Or.inl blank⟩)
  · rw [if_neg blank]
    cases found : read text with
    | ok v => exact Or.inl ⟨v, rfl, rfl⟩
    | error fault =>
      have reason := explains_of_read found
      cases fault with
      | syntaxFault fault place =>
        obtain ⟨before, rest, split, rfl⟩ := reason
        exact Or.inr (Or.inl ⟨_, _, rfl, Or.inr ⟨before, rest, split, rfl⟩⟩)
      | numeralTooLong n => exact Or.inr (Or.inr ⟨n, reason, rfl⟩)

section
variable {text : String}

theorem parse_of_warnings {v : Value} {warnings : List String} (found : read text = .ok v)
    (checked : check (.string text) = .ok { warnings }) : parse (.string text) = .ok v := by
  rw [parse, checked, ok_bind]
  exact mapError_eq_ok.mpr found

theorem parse_of_issue {category : Category} {message location : String}
    (checked : check (.string text) = .ok (.ofIssue category message location)) :
    parse (.string text) = .error (.signal .value s!"Invalid JSON input: {message}") := by
  rw [parse, checked]
  rfl

theorem parse_of_error {e : Failure} (checked : check (.string text) = .error e) :
    parse (.string text) = .error e := by
  rw [parse, checked]
  rfl

end

/-- **Checking a text and parsing it agree.** A text is valid exactly when it can be parsed. When it
is not, there is one issue, an issue of syntax: either the text is blank, or the issue lies at a
place in the text; and parsing fails with the issue's message. A text is left without a verdict only
if it holds a run of digits that is too long to be read, and then parsing fails in the same way. -/
theorem check_agrees_parse (text : String) :
    ((∃ report, check (.string text) = .ok report ∧ report.isValid = true) ↔
      ∃ v, parse (.string text) = .ok v) ∧
    (∀ report, check (.string text) = .ok report → report.isValid = false →
      ∃ message location, report.issues = [⟨.syntaxError, message, some location⟩] ∧
        (isBlankText text = true ∨ LiesIn text.toList location) ∧
        parse (.string text) = .error (.signal .value s!"Invalid JSON input: {message}")) ∧
    ∀ e, check (.string text) = .error e →
      ∃ n, HoldsOverlong text.toList n ∧ e = .numeralTooLong n ∧
        parse (.string text) = .error e := by
  rcases verdict_of_check text with ⟨v, found, checked⟩ | ⟨message, location, checked, lies⟩ |
    ⟨n, holds, checked⟩
  · have parsed := parse_of_warnings found checked
    refine ⟨⟨fun _ => ⟨v, parsed⟩, fun _ => ⟨_, checked, rfl⟩⟩, ?_, ?_⟩
    · intro report same invalid
      cases checked.symm.trans same
      cases invalid
    · intro e failed
      cases checked.symm.trans failed
  · have parsed := parse_of_issue checked
    refine ⟨⟨?_, ?_⟩, ?_, ?_⟩
    · rintro ⟨report, same, valid⟩
      cases checked.symm.trans same
      cases valid
    · rintro ⟨v, same⟩
      cases parsed.symm.trans same
    · intro report same _
      cases checked.symm.trans same
      exact ⟨message, location, rfl, lies, parsed⟩
    · intro e failed
      cases checked.symm.trans failed
  · have parsed := parse_of_error checked
    refine ⟨⟨?_, ?_⟩, ?_, ?_⟩
    · rintro ⟨report, same, _⟩
      cases checked.symm.trans same
    · rintro ⟨v, same⟩
      cases parsed.symm.trans same
    · intro report same
      cases checked.symm.trans same
    · intro e failed
      cases checked.symm.trans failed
      exact ⟨n, holds, rfl, parsed⟩

/-- An array that is not closed has one issue, at its end. -/
theorem check_agrees_parse_unclosed :
    (∃ report, check (.string "[1") = .ok report ∧ report.isValid = false) ∧
      LiesIn "[1".toList "line 1, column 3" ∧
      parse (.string "[1") = .error (.signal .value
        "Invalid JSON input: Invalid JSON syntax: Expecting ',' delimiter") := by
  have checked : check (.string "[1") = .ok (.ofIssue .syntaxError
      "Invalid JSON syntax: Expecting ',' delimiter" "line 1, column 3") := by decide
  obtain ⟨message, location, one, lies, parsed⟩ :=
    (check_agrees_parse "[1").2.1 _ checked rfl
  cases one
  have filled : isBlankText "[1" = false := by decide
  rw [filled] at lies
  exact ⟨⟨_, checked, rfl⟩, lies.resolve_left Bool.false_ne_true, parsed⟩

/-- A run of digits that is too long to be read is not read where it stands alone. -/
theorem read_overlong {d : Char} {ds : List Char} (all : ∀ c ∈ d :: ds, c.isDigit = true)
    (first : d ≠ '0') (long : Numeral.limit < (d :: ds).length) :
    read (String.ofList (d :: ds)) = .error (.numeralTooLong (d :: ds).length) := by
  have digit := all d List.mem_cons_self
  have opens := opens_of_isDigit digit
  have other : ∀ c : Char, c.isDigit = false → d ≠ c := by
    rintro c no rfl
    rw [digit] at no
    cases no
  have spanned : spanDigits (d :: ds) = (d :: ds, []) := by
    have ends : EndsNumeral [] := trivial
    simpa using spanDigits_append ends all
  have whole : wholePart (d :: ds) = (d :: ds, []) := by
    unfold wholePart
    split
    · rename_i zero
      exact absurd (List.cons.inj zero).1 first
    · exact spanned
  have refused : Numeral.read (d :: ds) = .error (d :: ds).length := if_neg (Nat.not_le.mpr long)
  have number : readNumber (d :: ds) false (d :: ds) =
      .error (.numeralTooLong (d :: ds).length) := by
    unfold readNumber
    rw [whole]
    dsimp only [fractionPart, exponentPart]
    rw [refused]
    rfl
  have value : readWhole (d :: ds) = .error (.numeralTooLong (d :: ds).length) := by
    unfold readWhole
    split
    · rename_i mark
      exact absurd (List.cons.inj mark).1 opens.2.2.2
    · rw [skipSpace_cons opens.1, readValue_scalar _ (other '"' (by decide)) (other '[' (by decide))
        (other _ (by decide)), readScalar_digit digit, number]
      rfl
  rw [read, String.toList_ofList, value]

/-- An integer of 4301 digits is JSON text, and checking it gives no report. -/
theorem check_misses_overlong :
    let text := String.ofList (List.replicate 4301 '1')
    check (.string text) = .error (.numeralTooLong 4301) ∧
      ¬ ∃ report, check (.string text) = .ok report := by
  intro text
  have ones : List.replicate 4301 '1' = '1' :: List.replicate 4300 '1' := List.replicate_succ
  have length : ('1' :: List.replicate 4300 '1').length = 4301 := by
    rw [← ones, List.length_replicate]
  have found : read text = .error (.numeralTooLong 4301) := by
    have digits : ∀ c ∈ '1' :: List.replicate 4300 '1', c.isDigit = true := by
      intro c mem
      rw [← ones] at mem
      rw [List.eq_of_mem_replicate mem]
      rfl
    have overlong := read_overlong digits (by decide) (by rw [length]; decide)
    rwa [length, ← ones] at overlong
  have filled : isBlankText text = false := isBlankText_print (opens_of_isDigit rfl)
  have checked : check (.string text) = .error (.numeralTooLong 4301) := by
    rw [check, filled, found]
    rfl
  refine ⟨checked, ?_⟩
  rintro ⟨report, same⟩
  cases checked.symm.trans same

end Recast.Json
