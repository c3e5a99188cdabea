import Mathlib.Data.List.Forall2
import Recast.Proofs.Refusals

/-!
Checking paths without reading them for good. A value spells a path, or it is refused as malformed,
or the reading breaks off: at a text with a run of digits in brackets that is too long to be read,
or at a value whose refusal would have to name an integer that is too long to be written
(`verdict_of_ofValue`). A check answers in the first two cases, and in the third it fails as reading
does.

* `verdict_of_issues`: a list of values is reported on, one issue for each that spells no path,
  unless the reading of one of them breaks off;
* `check_reports_each`: what the checks of one text and of a list come to.
-/

namespace Recast.Path

open Text

/-- Reading a text ends in a failure that is no refusal of the text: it holds a run of digits in
brackets that is too long to be read. -/
def Overruns (text : String) (e : Failure) : Prop :=
  ¬ Readable text.toList ∧ (∃ n, e = .numeralTooLong n) ∧ read text = .error e

/-- Reading a value ends in a failure that is no refusal of it: it is a text that overruns, or it
holds an integer of more digits than are written, and so cannot be named. -/
inductive Breaks : Value → Failure → Prop where
  | text {text : String} {e : Failure} (overruns : Overruns text e) : Breaks (.string text) e
  | literal {v : Value} (long : v.all Value.isShort = false) : Breaks v Failure.unwritable

/-- An issue reports that a value spells no path, at the value. -/
def Reports (v : Value) (issue : Issue) : Prop :=
  ∃ cause path location, cause.kind = .malformedPath ∧
    ofValue v = .error (.ofCause cause path) ∧ v.plainText = .ok location ∧
    issue = ⟨.malformedPath, cause.message, some location⟩

/-! ## One value -/

theorem verdict_of_read (text : String) :
    (∃ p, read text = .ok p) ∨
    (∃ cause, cause.kind = .malformedPath ∧ read text = .error (.ofCause cause (some text))) ∨
    ∃ e, Overruns text e := by
  unfold Overruns read
  cases elements : readElements text.toList with
  | ok es => exact Or.inl ⟨_, rfl⟩
  | error refusal =>
    have reason := explains_of_readElements elements
    cases refusal with
    | cause cause => exact Or.inr (Or.inl ⟨cause, reason, rfl⟩)
    | numeralTooLong n =>
      obtain ⟨digits, number, long, bracketed⟩ := reason
      have overlong : ¬ Readable text.toList := fun readable =>
        long (readable digits number bracketed)
      exact Or.inr (Or.inr ⟨_, overlong, ⟨n, rfl⟩, rfl⟩)

/-- What is no text is no path. -/
theorem ofValue_of_not_text {v : Value} (other : ∀ text, v ≠ .string text) :
    ofValue v = v.literal >>= fun shown =>
      .error (.ofCause (.pathNotText v.typeName) (some shown)) := by
  cases v with
  | string text => exact absurd rfl (other text)
  | _ => rfl

/-- A value that spells a path is a text. -/
theorem text_of_ofValue {v : Value} {p : Path} (h : ofValue v = .ok p) :
    ∃ text, v = .string text ∧ read text = .ok p := by
  by_cases text : ∃ text, v = .string text
  · obtain ⟨text, rfl⟩ := text
    exact ⟨text, rfl, h⟩
  · rw [ofValue_of_not_text fun t same => text ⟨t, same⟩] at h
    obtain ⟨_, _, h⟩ := bind_eq_ok.mp h
    cases h

theorem plainText_of_not_text {v : Value} (other : ∀ text, v ≠ .string text) :
    v.plainText = v.literal := by
  cases v with
  | string text => exact absurd rfl (other text)
  | _ => rfl

theorem ofValue_of_breaks {v : Value} {e : Failure} (h : Breaks v e) : ofValue v = .error e := by
  cases h with
  | text overruns => exact overruns.2.2
  | literal long =>
    have other : ∀ text, v ≠ .string text := by
      rintro text rfl
      cases long
    rw [ofValue_of_not_text other, Value.literal_of_long long, error_bind]

/-- **What a value can come to as a path.** -/
theorem verdict_of_ofValue (v : Value) :
    (∃ p, ofValue v = .ok p) ∨ (∃ issue, Reports v issue) ∨ ∃ e, Breaks v e := by
  by_cases text : ∃ text, v = .string text
  · obtain ⟨text, rfl⟩ := text
    rcases verdict_of_read text with spelled | ⟨cause, malformed, failed⟩ | ⟨e, overruns⟩
    · exact Or.inl spelled
    · exact Or.inr (Or.inl ⟨_, cause, _, text, malformed, failed, rfl, rfl⟩)
    · exact Or.inr (Or.inr ⟨e, .text overruns⟩)
  · have other : ∀ text, v ≠ .string text := fun t same => text ⟨t, same⟩
    cases short : v.all Value.isShort with
    | true =>
      have shown := Value.literal_of_short short
      refine Or.inr (Or.inl ⟨_, .pathNotText v.typeName, some v.spelling, v.spelling, rfl, ?_, ?_,
        rfl⟩)
      · rw [ofValue_of_not_text other, shown, ok_bind]
      · rw [plainText_of_not_text other, shown]
    | false => exact Or.inr (Or.inr ⟨_, .literal short⟩)

theorem isValid_of_ok {v : Value} {p : Path} (h : ofValue v = .ok p) : isValid v = .ok true := by
  rw [isValid, h]

theorem isValid_of_reports {v : Value} {issue : Issue} (h : Reports v issue) :
    isValid v = .ok false := by
  obtain ⟨cause, path, location, malformed, failed, _⟩ := h
  rw [isValid, failed]
  exact if_pos malformed

theorem isValid_of_overruns {text : String} {e : Failure} (h : Overruns text e) :
    isValid (.string text) = .error e := by
  obtain ⟨_, ⟨n, rfl⟩, failed⟩ := h
  rw [isValid, ofValue, failed]
  rfl

/-! ## A list of values -/

theorem check_eq (values : List Value) :
    check values = (fun issues => { issues := issues.flatten }) <$> values.mapM issuesOf := rfl

theorem issuesOf_of_ok {v : Value} {p : Path} (h : ofValue v = .ok p) : issuesOf v = .ok [] := by
  rw [issuesOf, h]

theorem issuesOf_of_reports {v : Value} {issue : Issue} (h : Reports v issue) :
    issuesOf v = .ok [issue] := by
  obtain ⟨cause, path, location, malformed, failed, shown, rfl⟩ := h
  simp only [issuesOf, failed, Failure.ofCause, Fault.kind, malformed, if_true, shown]
  rfl

theorem issuesOf_of_breaks {v : Value} {e : Failure} (h : Breaks v e) :
    issuesOf v = .error e := by
  rw [issuesOf, ofValue_of_breaks h]
  cases h with
  | text overruns =>
    obtain ⟨n, rfl⟩ := overruns.2.1
    rfl
  | literal => rfl

/-- Whether a value spells no path. -/
def isRefused (v : Value) : Bool := !(ofValue v).isOk

theorem isRefused_of_ok {v : Value} {p : Path} (h : ofValue v = .ok p) : isRefused v = false := by
  rw [isRefused, h]
  rfl

theorem isRefused_of_reports {v : Value} {issue : Issue} (h : Reports v issue) :
    isRefused v = true := by
  obtain ⟨cause, path, _, _, failed, _⟩ := h
  rw [isRefused, failed]
  rfl

theorem isRefused_eq_false_iff {v : Value} : isRefused v = false ↔ ∃ p, ofValue v = .ok p := by
  unfold isRefused
  cases ofValue v <;> simp [Except.isOk, Except.toBool]

/-- **A list of values is reported on**, one issue for each value that spells no path, in their
order, unless the reading of one of them breaks off. -/
theorem verdict_of_issues (values : List Value) :
    (∃ found, values.mapM issuesOf = .ok found ∧
      List.Forall₂ Reports (values.filter isRefused) found.flatten) ∨
    ∃ v e, v ∈ values ∧ Breaks v e ∧ values.mapM issuesOf = .error e := by
  induction values with
  | nil => exact Or.inl ⟨[], rfl, List.Forall₂.nil⟩
  | cons v rest ih =>
    rw [List.mapM_cons]
    rcases verdict_of_ofValue v with ⟨p, spelled⟩ | ⟨issue, reports⟩ | ⟨e, breaks⟩
    · rw [issuesOf_of_ok spelled, List.filter_cons_of_neg (by simp [isRefused_of_ok spelled])]
      rcases ih with ⟨found, made, all⟩ | ⟨w, e, mem, breaks, failed⟩
      · exact Or.inl ⟨[] :: found, by rw [made]; rfl, all⟩
      · exact Or.inr ⟨w, e, List.mem_cons_of_mem v mem, breaks, by rw [failed]; rfl⟩
    · rw [issuesOf_of_reports reports, List.filter_cons_of_pos (isRefused_of_reports reports)]
      rcases ih with ⟨found, made, all⟩ | ⟨w, e, mem, breaks, failed⟩
      · exact Or.inl ⟨[issue] :: found, by rw [made]; rfl, List.Forall₂.cons reports all⟩
      · exact Or.inr ⟨w, e, List.mem_cons_of_mem v mem, breaks, by rw [failed]; rfl⟩
    · rw [issuesOf_of_breaks breaks]
      exact Or.inr ⟨v, e, List.mem_cons_self, breaks, rfl⟩

/-- **Checks of paths report, and do not fail.** A text is a valid path exactly when it can be read,
and an invalid one exactly when reading refuses it as malformed. A list of values gives a report:
its issues are one for each value that spells no path, in their order, each of a malformed path and
at its value, so that the report is valid exactly when every value spells a path. The checks fail
only where reading does: on a text with a run of digits in brackets that is too long to be read, and
on a value that holds an integer too long to be written. -/
theorem check_reports_each (text : String) (values : List Value) :
    ((isValid (.string text) = .ok true ↔ ∃ p, read text = .ok p) ∧
      (isValid (.string text) = .ok false ↔
        ∃ cause, cause.kind = .malformedPath ∧ read text = .error (.ofCause cause (some text))) ∧
      ∀ e, isValid (.string text) = .error e → Overruns text e) ∧
    ((∃ report, check values = .ok report ∧
        List.Forall₂ Reports (values.filter isRefused) report.issues ∧
        (report.isValid = true ↔ ∀ v ∈ values, ∃ p, ofValue v = .ok p)) ∨
      ∃ v e, v ∈ values ∧ Breaks v e ∧ check values = .error e) := by
  refine ⟨?_, ?_⟩
  · rcases verdict_of_read text with ⟨p, spelled⟩ | ⟨cause, malformed, failed⟩ | ⟨e, overruns⟩
    · have valid : isValid (.string text) = .ok true := isValid_of_ok spelled
      simp [valid, spelled]
    · have invalid : isValid (.string text) = .ok false :=
        isValid_of_reports ⟨cause, some text, text, malformed, failed, rfl, rfl⟩
      refine ⟨by simp [invalid, failed], ?_, by simp [invalid]⟩
      exact ⟨fun _ => ⟨cause, malformed, failed⟩, fun _ => invalid⟩
    · have broken := isValid_of_overruns overruns
      have failed := overruns.2.2
      obtain ⟨n, rfl⟩ := overruns.2.1
      refine ⟨by simp [broken, failed], ?_, ?_⟩
      · simp [broken, failed, Failure.numeralTooLong, Failure.ofCause]
      · intro e same
        cases broken.symm.trans same
        exact overruns
  · rw [check_eq]
    rcases verdict_of_issues values with ⟨found, made, all⟩ | ⟨v, e, mem, breaks, failed⟩
    · refine Or.inl ⟨_, by rw [made]; rfl, all, ?_⟩
      have lengths := all.length_eq
      rw [Report.isValid, List.isEmpty_iff, ← List.length_eq_zero_iff, ← lengths,
        List.length_eq_zero_iff, List.filter_eq_nil_iff]
      simp [isRefused_eq_false_iff]
    · exact Or.inr ⟨v, e, mem, breaks, by rw [failed]; rfl⟩

/-- Of four texts the second and the last are no paths. -/
theorem check_reports_each_segments :
    let values : List Value :=
      [.string "a.b", .string "a[", .string "items[0].name", .string "a..b"]
    (∃ cause, cause.kind = .malformedPath ∧ read "a[" = .error (.ofCause cause (some "a["))) ∧
      ∃ report, check values = .ok report ∧ report.isValid = false ∧
        List.Forall₂ Reports [.string "a[", .string "a..b"] report.issues := by
  intro values
  have invalid : isValid (.string "a[") = .ok false := by decide
  have kept : values.filter isRefused = [.string "a[", .string "a..b"] := rfl
  have made : check values = .ok { issues :=
      [⟨.malformedPath, "Unbalanced '[' in path segment", some "a["⟩,
        ⟨.malformedPath, "Empty path segment", some "a..b"⟩] } := by decide
  obtain ⟨one, many⟩ := check_reports_each "a[" values
  refine ⟨one.2.1.mp invalid, ?_⟩
  rcases many with ⟨report, same, all, _⟩ | ⟨_, e, _, _, failed⟩
  · rw [kept] at all
    cases made.symm.trans same
    exact ⟨_, made, rfl, all⟩
  · cases made.symm.trans failed

/-! ## Texts that overrun -/

/-- A run of digits in brackets that is too long is not read where it stands alone. -/
theorem read_bracketed {digits : List Char} (number : isNumber digits = true)
    (long : ¬ IsShort digits) :
    read (String.ofList (Segment.bracketed digits)) = .error (.numeralTooLong digits.length) := by
  have inside : ']' ∉ digits := fun mem => (ne_of_isNumber number mem).2.2 rfl
  have nested : digits.contains '[' = false := by
    simpa using fun mem => (ne_of_isNumber number mem).2.1 rfl
  have refused : Numeral.read digits = .error digits.length := if_neg long
  have position : readPosition digits = .error (.numeralTooLong digits.length) := by
    rw [readPosition, nested, number, refused]
    rfl
  have indexes : readIndexes none (Segment.bracketed digits) =
      .error (.numeralTooLong digits.length) := by
    rw [Segment.bracketed, readIndexes, if_pos rfl, readIndexes_token [] digits [] inside]
    simp only [List.reverse_nil, List.nil_append, position]
    rfl
  have segment : readSegment (Segment.bracketed digits) =
      .error (.numeralTooLong digits.length) := by
    have unnamed : (Segment.bracketed digits).takeWhile (· ≠ '[') = [] := rfl
    have indexed : (Segment.bracketed digits).dropWhile (· ≠ '[') = Segment.bracketed digits := rfl
    simp only [readSegment, unnamed, indexed, indexes]
    rfl
  have inOne : '.' ∉ Segment.bracketed digits := by
    simp only [Segment.bracketed, List.mem_cons, List.mem_append, List.not_mem_nil, or_false]
    rintro (point | point | point)
    · cases point
    · exact (ne_of_isNumber number point).1 rfl
    · cases point
  have elements : readElements (Segment.bracketed digits) =
      .error (.numeralTooLong digits.length) := by
    rw [readElements, splitOn_eq, List.splitOn_eq_singleton inOne, List.mapM_cons, segment]
    rfl
  rw [read, String.toList_ofList, elements]

/-- An index of 4301 digits is no path, and neither check says so. -/
theorem check_misses_bracketed :
    let text := String.ofList (Segment.bracketed (List.replicate 4301 '1'))
    isValid (.string text) = .error (.numeralTooLong 4301) ∧
      check [.string text] = .error (.numeralTooLong 4301) ∧
      isValid (.string text) ≠ .ok false ∧ ¬ ∃ report, check [.string text] = .ok report := by
  intro text
  have number : isNumber (List.replicate 4301 '1') = true := by
    rw [isNumber, Bool.and_eq_true, List.all_eq_true]
    refine ⟨rfl, fun c mem => ?_⟩
    rw [List.eq_of_mem_replicate mem]
    rfl
  have long : ¬ IsShort (List.replicate 4301 '1') := by
    rw [IsShort, List.length_replicate]
    decide
  have failed : read text = .error (.numeralTooLong 4301) := by
    rw [read_bracketed number long, List.length_replicate]
  have broken : isValid (.string text) = .error (.numeralTooLong 4301) := by
    rw [isValid, ofValue, failed]
    rfl
  have stopped : check [.string text] = .error (.numeralTooLong 4301) := by
    rw [check_eq, List.mapM_cons, issuesOf, ofValue, failed]
    rfl
  refine ⟨broken, stopped, ?_, ?_⟩
  · intro same
    cases broken.symm.trans same
  · rintro ⟨report, same⟩
    cases stopped.symm.trans same

end Recast.Path
