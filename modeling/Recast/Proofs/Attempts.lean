import Recast.Document
import Recast.Proofs.Range

/-!
Attempts to extract a scalar. On a text that is read as a path an attempt has a result: a success
where a value of the right kind is found, and otherwise the fault that tells whether nothing was
found or something else. The one exception is an integer that is too large for a double where a
number is asked for: the attempt fails with a signal, which no attempt turns into a result
(`attempt_of_overflows`). Main statement: `attempt_typed`.
-/

namespace Recast

/-- What typed extraction asks for. -/
inductive Scalar where
  | string
  | integer
  | number
  | boolean

namespace Scalar

def decoder : Scalar → Decoder
  | .string => Decoder.asString
  | .integer => Decoder.asInt
  | .number => Decoder.asFloat
  | .boolean => Decoder.asBool

/-- Whether a value is of the kind asked for. An integral double counts as an integer, and an
integer as a number. -/
def fits : Scalar → Value → Bool
  | .string, .string _ => true
  | .integer, .int _ => true
  | .integer, .double d => d.isIntegral
  | .number, .int _ => true
  | .number, .double _ => true
  | .boolean, .bool _ => true
  | _, _ => false

/-- A number is asked for, and there is an integer whose nearest double is not finite. -/
def Overflows (s : Scalar) (v : Value) : Prop :=
  s = .number ∧ ∃ n, v = .int n ∧ Double.overflow ≤ n.natAbs

end Scalar

/-! ## Decoding -/

theorem Double.isIntegral_iff {d : Double} : d.isIntegral = true ↔ ∃ n, d.toInt? = some n := by
  unfold toInt?
  split <;> simp_all

namespace Scalar

theorem decoder_eq_ok {s : Scalar} {v : Value} (fits : s.fits v = true) (inside : ¬ s.Overflows v) :
    ∃ w, s.decoder v = .ok w := by
  cases s with
  | string => cases v <;> first | exact ⟨_, rfl⟩ | cases fits
  | integer =>
    cases v with
    | int n => exact ⟨_, rfl⟩
    | double d =>
      obtain ⟨n, integral⟩ := Double.isIntegral_iff.mp fits
      exact ⟨.int n, by simp only [decoder, Decoder.asInt, integral]⟩
    | _ => cases fits
  | number =>
    cases v with
    | int n =>
      have small : Double.ofInt? n ≠ none := by
        intro none
        exact inside ⟨rfl, n, rfl, Double.ofInt?_eq_none_iff.mp none⟩
      obtain ⟨d, nearest⟩ := Option.ne_none_iff_exists'.mp small
      exact ⟨.double d, by simp only [decoder, Decoder.asFloat, nearest]⟩
    | double d => exact ⟨_, rfl⟩
    | _ => cases fits
  | boolean => cases v <;> first | exact ⟨_, rfl⟩ | cases fits

/-- A value of another kind is complained about. -/
theorem decoder_complains {s : Scalar} {v : Value} (other : s.fits v = false) :
    ∃ complaint, s.decoder v = .error complaint ∧ complaint.isComplaint = true := by
  cases s with
  | string => cases v <;> first | exact ⟨_, rfl, rfl⟩ | cases other
  | integer =>
    cases v with
    | int n => cases other
    | double d =>
      have fraction : d.toInt? = none := by
        have other : d.isIntegral = false := other
        simp [Double.toInt?, other]
      exact ⟨_, by simp only [decoder, Decoder.asInt, fraction]; rfl, rfl⟩
    | _ => exact ⟨_, rfl, rfl⟩
  | number => cases v <;> first | exact ⟨_, rfl, rfl⟩ | cases other
  | boolean => cases v <;> first | exact ⟨_, rfl, rfl⟩ | cases other

theorem decoder_overflows {s : Scalar} {v : Value} (overflows : s.Overflows v) :
    s.decoder v = .error (.signal .overflow "int too large to convert to float") := by
  obtain ⟨rfl, n, rfl, large⟩ := overflows
  simp only [decoder, Decoder.asFloat, Double.ofInt?_eq_none_iff.mpr large]

end Scalar

/-! ## Extraction -/

section
variable {v : Value} {path : Path} {decode : Decoder}

theorem extract_of_absent (nothing : v.broadcast path.elements = .absent) :
    extract v path (some decode) = .error (.ofCause .pathMissing path.text) := by
  simp only [extract, Extract.present, nothing, Value.isAbsent]
  rfl

theorem extract_of_present (found : v.broadcast path.elements ≠ .absent) :
    extract v path (some decode) = Extract.decoded decode path (v.broadcast path.elements) := by
  have present : (v.broadcast path.elements).isAbsent = false := by
    cases same : v.broadcast path.elements <;> first | rfl | exact absurd same found
  simp only [extract, Extract.present, present]
  rfl

end

namespace Document

/-- An attempt to extract a scalar at the path that a text spells. -/
def attempt (d : Document) (s : Scalar) (text : String) : Outcome Attempt := do
  let path ← Path.read text
  Attempt.ofOutcome (extract d.value path (some s.decoder))

section
variable {d : Document} {s : Scalar} {text : String} {path : Path}

theorem attempt_eq (read : Path.read text = .ok path) :
    d.attempt s text = Attempt.ofOutcome (extract d.value path (some s.decoder)) := by
  rw [attempt, read, ok_bind]

theorem attempt_of_absent (read : Path.read text = .ok path)
    (nothing : d.value.broadcast path.elements = .absent) :
    d.attempt s text = .ok (.failed { cause := .pathMissing, path := some path.text }) := by
  rw [attempt_eq read, extract_of_absent nothing]
  rfl

theorem attempt_of_fits (read : Path.read text = .ok path)
    (fits : s.fits (d.value.broadcast path.elements) = true)
    (inside : ¬ s.Overflows (d.value.broadcast path.elements)) :
    ∃ w, d.attempt s text = .ok (.success w) := by
  have found : d.value.broadcast path.elements ≠ .absent := by
    intro nothing
    rw [nothing] at fits
    cases s <;> cases fits
  obtain ⟨w, decoded⟩ := Scalar.decoder_eq_ok fits inside
  refine ⟨w, ?_⟩
  rw [attempt_eq read, extract_of_present found, Extract.decoded, decoded]
  rfl

theorem attempt_of_other (read : Path.read text = .ok path)
    (found : d.value.broadcast path.elements ≠ .absent)
    (other : s.fits (d.value.broadcast path.elements) = false) :
    ∃ reason, d.attempt s text =
      .ok (.failed { cause := .undecodable reason, path := some path.text }) := by
  obtain ⟨complaint, decoded, complains⟩ := Scalar.decoder_complains other
  refine ⟨complaint.text, ?_⟩
  rw [attempt_eq read, extract_of_present found, Extract.decoded, decoded]
  simp only [Outcome.adopt, complains]
  rfl

theorem attempt_of_overflows (read : Path.read text = .ok path)
    (overflows : s.Overflows (d.value.broadcast path.elements)) :
    d.attempt s text = .error (.signal .overflow "int too large to convert to float") := by
  have found : d.value.broadcast path.elements ≠ .absent := by
    intro nothing
    obtain ⟨_, n, same, _⟩ := overflows
    rw [nothing] at same
    cases same
  have decoded := Scalar.decoder_overflows overflows
  rw [attempt_eq read, extract_of_present found, Extract.decoded, decoded]
  rfl

end

/-- **Typed attempts.** Take a text that is read as a path, and what a broadcast along it finds in a
document. Unless a number is asked for and this is an integer whose nearest double is not finite,
the attempt to extract a scalar has a result: it is a success exactly when what is found is of the
kind asked for, it carries a missing path exactly when nothing is found, and a type mismatch exactly
in all other cases; and either fault names the path. With such an integer the attempt ends in an
overflow, which is no result. -/
theorem attempt_typed (d : Document) (s : Scalar) (text : String) (path : Path)
    (read : Path.read text = .ok path) :
    let found := d.value.broadcast path.elements
    (¬ s.Overflows found → ∃ a, d.attempt s text = .ok a ∧
      ((∃ w, a = .success w) ↔ s.fits found = true) ∧
      ((∃ f, a = .failed f ∧ f.kind = .pathNotFound) ↔ found = .absent) ∧
      ((∃ f, a = .failed f ∧ f.kind = .typeMismatch) ↔
        found ≠ .absent ∧ s.fits found = false) ∧
      ∀ f, a = .failed f → f.path = some path.text) ∧
    (s.Overflows found →
      d.attempt s text = .error (.signal .overflow "int too large to convert to float")) := by
  intro found
  refine ⟨?_, attempt_of_overflows read⟩
  intro inside
  by_cases nothing : found = .absent
  · have other : s.fits .absent = false := by cases s <;> rfl
    refine ⟨_, attempt_of_absent read nothing, ?_⟩
    simp [nothing, other, Fault.kind, Cause.kind]
  · cases fits : s.fits found with
    | true =>
      obtain ⟨w, succeeded⟩ := attempt_of_fits read fits inside
      refine ⟨_, succeeded, ?_⟩
      simp [nothing]
    | false =>
      obtain ⟨reason, failed⟩ := attempt_of_other read nothing fits
      refine ⟨_, failed, ?_⟩
      simp [nothing, Fault.kind, Cause.kind]

/-- The number in the row is found, the rows together are a list, and no row has another field. -/
theorem attempt_typed_rows :
    let d : Document := ⟨.object [("rows", .list [.object [("n", .int 3)]])], rfl⟩
    (∃ w, d.attempt .number "rows[0].n" = .ok (.success w)) ∧
      (∃ f, d.attempt .number "rows.n" = .ok (.failed f) ∧ f.kind = .typeMismatch) ∧
      ∃ f, d.attempt .number "rows.m" = .ok (.failed f) ∧ f.kind = .pathNotFound := by
  intro d
  have inside : ¬ Scalar.number.Overflows (.int 3) := by
    rintro ⟨_, n, same, large⟩
    cases same
    exact absurd large (by decide +kernel)
  have none : ¬ Scalar.number.Overflows (.list [.int 3]) := by
    rintro ⟨_, n, same, _⟩
    cases same
  have nothing : ¬ Scalar.number.Overflows .absent := by
    rintro ⟨_, n, same, _⟩
    cases same
  obtain ⟨a, made, succeeds, _⟩ := (attempt_typed d .number "rows[0].n"
    ⟨[.field "rows", .index 0, .field "n"], "rows[0].n"⟩ (by decide)).1 inside
  obtain ⟨b, made', _, _, mismatches, _⟩ := (attempt_typed d .number "rows.n"
    ⟨[.field "rows", .field "n"], "rows.n"⟩ (by decide)).1 none
  obtain ⟨c, made'', _, misses, _⟩ := (attempt_typed d .number "rows.m"
    ⟨[.field "rows", .field "m"], "rows.m"⟩ (by decide)).1 nothing
  obtain ⟨w, rfl⟩ := succeeds.mpr rfl
  obtain ⟨f, rfl, mismatch⟩ := mismatches.mpr ⟨by rintro ⟨⟩, rfl⟩
  obtain ⟨g, rfl, missing⟩ := misses.mpr rfl
  exact ⟨⟨w, made⟩, ⟨f, made', mismatch⟩, ⟨g, made'', missing⟩⟩

/-- No attempt to extract a number has a result where an integer past the range of the doubles is
found, although it is a number. -/
theorem attempt_overflows :
    let d : Document := ⟨.int (10 ^ 309), rfl⟩
    Path.read "" = .ok ⟨[], ""⟩ ∧ Scalar.number.fits (d.value.broadcast []) = true ∧
      ∀ a, d.attempt .number "" ≠ .ok a := by
  intro d
  have read : Path.read "" = .ok ⟨[], ""⟩ := by decide
  have large : Double.overflow ≤ ((10 : Int) ^ 309).natAbs := by decide +kernel
  refine ⟨read, rfl, ?_⟩
  intro a made
  rw [attempt_of_overflows read ⟨rfl, _, rfl, large⟩] at made
  cases made

end Document

end Recast
