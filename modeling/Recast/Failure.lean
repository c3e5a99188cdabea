import Recast.Text.Quoted

/-!
How an operation fails. A *fault* is the library's own: it has a cause, and it may know the path it
concerns and the chain of rules that met it. A *signal* comes from outside the rules of the library:
a function that the caller supplied, or a limit of number conversion. A *report* is what a check of
an input found without failing. Main statements: placing a fault below a rule puts that rule's index
in front of its chain (`under_rulePath`) and leaves its cause alone (`under_cause`).
-/

namespace Recast

/-- The families of faults that callers tell apart. -/
inductive FaultKind where
  | general
  | malformedPath
  | pathNotFound
  | typeMismatch
  | validation
  | config
deriving DecidableEq

/-- What kind of repair a fault calls for. -/
inductive Category where
  | malformedPath
  | pathNotFound
  | typeMismatch
  | validation
  | config
  | syntaxError
deriving DecidableEq

def Category.name : Category → String
  | .malformedPath => "malformed_path"
  | .pathNotFound => "path_not_found"
  | .typeMismatch => "type_mismatch"
  | .validation => "validation"
  | .config => "config"
  | .syntaxError => "syntax"

/-- A general fault is put down to the configuration. -/
def FaultKind.category : FaultKind → Category
  | .general => .config
  | .malformedPath => .malformedPath
  | .pathNotFound => .pathNotFound
  | .typeMismatch => .typeMismatch
  | .validation => .validation
  | .config => .config

/-- What is said of a numeral that is longer than the limit. -/
def overlong : String :=
  s!"Exceeds the limit ({Text.Numeral.limit} digits) for integer string conversion"

/-- What such a complaint ends with. -/
def raiseLimit : String := "; use sys.set_int_max_str_digits() to increase the limit"

/-- Why a fault arose. The types and kinds of values are given by their names. -/
inductive Cause where
  | emptySegment
  | unopenedIndex
  | unclosedIndex
  | nestedIndex
  | textAfterIndex (text : String)
  | negativeIndex (token : String)
  | nonNumericIndex (token : String)
  | pathNotText (typeName : String)
  | rootWrite
  | pathMissing
  | unsupportedType (typeName : String)
  | fieldIntoNonObject
  | indexIntoNonArray
  | indexPastEnd (index length : Nat)
  | absentText
  | untextualType (typeName : String)
  | numeralTooLong
  | mergeOfNonObject (kind : String)
  | arrayOfObjectsExpected (kind : String)
  | objectExpected (position : Nat) (kind : String)
  | filterOfNonObject (kind : String)
  | arrayExpected (typeName : String)
  | undecodable (reason : String)
  | mapperFailed (name path reason : String)
  | validatorFailed (name path reason : String)
  | validatorRejected (name path : String)
  | rulesExpected (typeName : String)
  | ruleNotObject (typeName : String)
  | unknownRuleType (literal : String) (known : List String)
  | invalidRulePath (reason : String)
  | invalidRule (reason : String)
  | memberNotText (key : String)
  | memberNotList (key : String)
  | fieldsNotNames
  | unnamed (what : String)
  | unknownName (what name : String) (known : List String)
  | invalidOptions (name reason : String)
  | unreadableFile (reason : String)
  | fileNotJson (reason : String) (line column : Nat)
  | stated (kind : FaultKind) (text : String)
deriving DecidableEq

namespace Cause

def kind : Cause → FaultKind
  | emptySegment | unopenedIndex | unclosedIndex | nestedIndex | textAfterIndex _
  | negativeIndex _ | nonNumericIndex _ | pathNotText _ | rootWrite => .malformedPath
  | pathMissing => .pathNotFound
  | unsupportedType _ | fieldIntoNonObject | indexIntoNonArray | indexPastEnd .. | absentText
  | untextualType _ | numeralTooLong | mergeOfNonObject _ | arrayOfObjectsExpected _
  | objectExpected .. | filterOfNonObject _ | arrayExpected _ | undecodable _
  | mapperFailed .. => .typeMismatch
  | validatorFailed .. | validatorRejected .. => .validation
  | rulesExpected _ | ruleNotObject _ | unknownRuleType .. | invalidRulePath _ | invalidRule _
  | memberNotText _ | memberNotList _ | fieldsNotNames | unnamed _ | unknownName ..
  | invalidOptions .. | unreadableFile _ | fileNotJson .. => .config
  | stated kind _ => kind

def message : Cause → String
  | emptySegment => "Empty path segment"
  | unopenedIndex => "Unbalanced ']' in path segment"
  | unclosedIndex => "Unbalanced '[' in path segment"
  | nestedIndex => "Nested '[' in array index"
  | textAfterIndex text => s!"Unexpected text '{text}' after array index"
  | negativeIndex token => s!"Negative array index '{token}'"
  | nonNumericIndex token => s!"Non-numeric array index '{token}'"
  | pathNotText typeName => s!"Path must be a string, got {typeName}"
  | rootWrite => "Cannot write to the root path"
  | pathMissing => "Path does not exist"
  | unsupportedType typeName => s!"Unsupported value type: {typeName}"
  | fieldIntoNonObject => "Cannot write a field into a non-object"
  | indexIntoNonArray => "Cannot write an index into a non-array"
  | indexPastEnd index length =>
    s!"Index {index} is past the end of an array of length {length}"
  | absentText => "An absent value cannot be serialized"
  | untextualType typeName => s!"Value of type {typeName} is not JSON serializable"
  | numeralTooLong => "Value is not JSON serializable: " ++ overlong ++ raiseLimit
  | mergeOfNonObject kind => s!"Cannot merge {kind} into the output, expected object"
  | arrayOfObjectsExpected kind => s!"Expected array of objects, got {kind}"
  | objectExpected position kind => s!"Expected object at element {position}, got {kind}"
  | filterOfNonObject kind => s!"Can only filter objects, got {kind}"
  | arrayExpected typeName => s!"Expected array, got {typeName}"
  | undecodable reason => s!"Cannot decode value: {reason}"
  | mapperFailed name path reason => s!"Mapper '{name}' failed on field '{path}': {reason}"
  | validatorFailed name path reason => s!"Validator '{name}' failed on field '{path}': {reason}"
  | validatorRejected name path => s!"Validator '{name}' rejected field '{path}'"
  | rulesExpected typeName => s!"Expected a list of rules, got {typeName}"
  | ruleNotObject typeName => s!"Rule must be an object, got {typeName}"
  | unknownRuleType literal known =>
    let names := ", ".intercalate known
    s!"Unknown rule type {literal}, expected one of {names}"
  | invalidRulePath reason => s!"Invalid path: {reason}"
  | invalidRule reason => reason
  | memberNotText key => s!"Missing or non-string '{key}'"
  | memberNotList key => s!"'{key}' must be a list"
  | fieldsNotNames => "'fields' must be a non-empty list of names"
  | unnamed what => s!"{what} must be a name or an object with 'name'"
  | unknownName what name known =>
    let names := ", ".intercalate known
    s!"Unknown {what} '{name}'. Known: {names}"
  | invalidOptions name reason => s!"Invalid options for mapper '{name}': {reason}"
  | unreadableFile reason => s!"Cannot read rule file: {reason}"
  | fileNotJson reason line column =>
    s!"Rule file is not valid JSON: {reason} at line {line}, column {column}"
  | stated _ text => text

/-- Whether the message can be made: the position in it is not too long to be written. -/
def isTellable : Cause → Bool
  | indexPastEnd index _ => Text.Numeral.isWritable index
  | _ => true

end Cause

/-- A failure of the library. The rule chain leads from the outermost rule to the innermost one that
met the fault. -/
structure Fault where
  cause : Cause
  path : Option String := none
  validator : Option String := none
  ruleIndex : Option Int := none
  rulePath : List Int := []
deriving DecidableEq

namespace Fault

def kind (f : Fault) : FaultKind := f.cause.kind

def message (f : Fault) : String := f.cause.message

/-- The rule chain as shown to users; without a chain, the index alone. -/
def ruleText (f : Fault) (index : Int) : String :=
  match f.rulePath with
  | [] => toString index
  | chain => ".".intercalate (chain.map toString)

/-- The message with the path and the rule chain, where they are known. -/
def text (f : Fault) : String :=
  let path := (f.path.map fun p => s!"path '{p}'").toList
  let rule := (f.ruleIndex.map fun i => "rule #" ++ f.ruleText i).toList
  match path ++ rule with
  | [] => f.message
  | details =>
    let joined := ", ".intercalate details
    s!"{f.message} ({joined})"

/-- The fault as seen from a configuration whose rule `index` met it. -/
def under (index : Nat) (f : Fault) : Fault :=
  { f with ruleIndex := some index, rulePath := index :: f.rulePath }

/-- The fault as seen from outside the array element at `location`: its path continues the
location. -/
def within (location : String) (f : Fault) : Fault :=
  let path := match f.path with
    | none => location
    | some inner =>
      match inner.toList with
      | [] => location
      | '[' :: _ => location ++ inner
      | _ => location ++ "." ++ inner
  { f with path := some path }

@[simp] theorem under_rulePath (i : Nat) (f : Fault) :
    (f.under i).rulePath = (i : Int) :: f.rulePath := rfl

@[simp] theorem under_ruleIndex (i : Nat) (f : Fault) : (f.under i).ruleIndex = some (i : Int) :=
  rfl

@[simp] theorem under_cause (i : Nat) (f : Fault) : (f.under i).cause = f.cause := rfl

@[simp] theorem under_path (i : Nat) (f : Fault) : (f.under i).path = f.path := rfl

@[simp] theorem within_cause (location : String) (f : Fault) :
    (f.within location).cause = f.cause := rfl

@[simp] theorem within_rulePath (location : String) (f : Fault) :
    (f.within location).rulePath = f.rulePath := rfl

end Fault

/-- What a signal complains about: the type of a value, a value, a missing key, a general condition,
a number out of range, a missing attribute, bytes that are no text, a text that is not JSON, a file
that is missing, a directory in the place of a file, a file in the place of a directory, or a file
name that is too long. -/
inductive Signal where
  | type
  | value
  | key
  | runtime
  | overflow
  | attribute
  | encoding
  | json
  | missingFile
  | directory
  | notDirectory
  | nameTooLong
deriving DecidableEq

/-- Whether a signal is the refusal of a file system. -/
def Signal.isSystem : Signal → Bool
  | .missingFile | .directory | .notDirectory | .nameTooLong => true
  | _ => false

inductive Failure where
  | fault (f : Fault)
  | signal (s : Signal) (message : String)
deriving DecidableEq

/-- The result of an operation that may fail. -/
abbrev Outcome := Except Failure

instance {α : Type} [DecidableEq α] : DecidableEq (Outcome α)
  | .ok a, .ok b => decidable_of_iff (a = b) (by simp)
  | .error e, .error f => decidable_of_iff (e = f) (by simp)
  | .ok _, .error _ => isFalse (by simp)
  | .error _, .ok _ => isFalse (by simp)

namespace Failure

def ofCause (cause : Cause) (path : Option String) : Failure := .fault { cause, path }

/-- A failure's text; a missing key is shown between quotes. -/
def text : Failure → String
  | .fault f => f.text
  | .signal .key message => Text.quoted message
  | .signal _ message => message

/-- Whether a function that the caller supplied complains about its input. Bytes that are no text
and a text that is not JSON are complaints about a value, too. Only such a complaint is turned into
a fault; faults and other signals pass through unchanged. -/
def isComplaint : Failure → Bool
  | .signal .type _ | .signal .value _ | .signal .key _ | .signal .encoding _ | .signal .json _ =>
    true
  | _ => false

/-- A failure's fault changed by `g`. -/
def mapFault (g : Fault → Fault) : Failure → Failure
  | .fault f => .fault (g f)
  | .signal s message => .signal s message

theorem mapFault_eq_fault {g : Fault → Fault} {e : Failure} {f : Fault} :
    e.mapFault g = .fault f ↔ ∃ inner, e = .fault inner ∧ g inner = f := by
  cases e <;> simp [mapFault]

/-- A numeral with more digits than are read. -/
def numeralTooLong (digits : Nat) : Failure :=
  .signal .value (overlong ++ s!": value has {digits} digits" ++ raiseLimit)

/-- An integer whose numeral would have more digits than are written. -/
def unwritable : Failure := .signal .value (overlong ++ raiseLimit)

end Failure

/-- Turns complaints of a function that the caller supplied into faults. -/
def Outcome.adopt {α : Type} (toFault : String → Fault) : Outcome α → Outcome α
  | .error f => .error (if f.isComplaint then .fault (toFault f.text) else f)
  | ok => ok

/-- Changes the fault of an outcome that failed with one. -/
def Outcome.mapFault {α : Type} (g : Fault → Fault) : Outcome α → Outcome α
  | .error f => .error (f.mapFault g)
  | ok => ok

/-! ## Reports -/

/-- One problem of an input, and where it is. -/
structure Issue where
  category : Category
  message : String
  location : Option String
deriving DecidableEq

/-- What a check found. An input is valid when there are no issues; warnings do not count. -/
structure Report where
  issues : List Issue := []
  warnings : List String := []
deriving DecidableEq

namespace Report

def isValid (r : Report) : Bool := r.issues.isEmpty

/-- The report of a single issue. -/
def ofIssue (category : Category) (message location : String) : Report :=
  { issues := [⟨category, message, some location⟩] }

end Report

/-! ## Operations in sequence -/

theorem bind_eq_ok {ε α β : Type} {x : Except ε α} {f : α → Except ε β} {b : β} :
    (x >>= f) = .ok b ↔ ∃ a, x = .ok a ∧ f a = .ok b := by
  cases x <;> simp [bind, Except.bind]

theorem bind_eq_error {ε α β : Type} {x : Except ε α} {f : α → Except ε β} {e : ε} :
    (x >>= f) = .error e ↔ x = .error e ∨ ∃ a, x = .ok a ∧ f a = .error e := by
  cases x <;> simp [bind, Except.bind]

theorem map_eq_ok {ε α β : Type} {x : Except ε α} {f : α → β} {b : β} :
    (f <$> x) = .ok b ↔ ∃ a, x = .ok a ∧ f a = b := by
  cases x <;> simp [Functor.map, Except.map]

theorem map_eq_error {ε α β : Type} {x : Except ε α} {f : α → β} {e : ε} :
    (f <$> x) = .error e ↔ x = .error e := by
  cases x <;> simp [Functor.map, Except.map]

theorem mapError_eq_ok {ε ε' α : Type} {g : ε → ε'} {x : Except ε α} {a : α} :
    x.mapError g = .ok a ↔ x = .ok a := by
  constructor
  · intro h
    cases x with
    | ok b =>
      cases h
      rfl
    | error e => cases h
  · rintro rfl
    rfl

/-- Each result of a sequence of operations is that of one of them. -/
theorem exists_of_mapM {ε α β : Type} {f : α → Except ε β} {xs : List α} {ys : List β}
    (h : xs.mapM f = .ok ys) {y : β} (mem : y ∈ ys) : ∃ x ∈ xs, f x = .ok y := by
  induction xs generalizing ys with
  | nil =>
    cases h
    cases mem
  | cons x xs ih =>
    rw [List.mapM_cons] at h
    obtain ⟨first, made, h⟩ := bind_eq_ok.mp h
    obtain ⟨others, more, h⟩ := bind_eq_ok.mp h
    cases h
    rcases List.mem_cons.mp mem with rfl | mem
    · exact ⟨x, List.mem_cons_self, made⟩
    · obtain ⟨x', mem', made'⟩ := ih more mem
      exact ⟨x', List.mem_cons_of_mem x mem', made'⟩

/-- A sequence of operations fails as one of them does. -/
theorem exists_of_mapM_error {ε α β : Type} {f : α → Except ε β} {xs : List α} {e : ε}
    (h : xs.mapM f = .error e) : ∃ x ∈ xs, f x = .error e := by
  induction xs with
  | nil => cases h
  | cons x xs ih =>
    rw [List.mapM_cons] at h
    rcases bind_eq_error.mp h with failed | ⟨_, _, h⟩
    · exact ⟨x, List.mem_cons_self, failed⟩
    · rcases bind_eq_error.mp h with failed | ⟨_, _, h⟩
      · obtain ⟨x', mem, failed'⟩ := ih failed
        exact ⟨x', List.mem_cons_of_mem x mem, failed'⟩
      · cases h

@[simp] theorem ok_bind {ε α β : Type} (a : α) (f : α → Except ε β) :
    ((Except.ok a : Except ε α) >>= f) = f a := rfl

@[simp] theorem error_bind {ε α β : Type} (e : ε) (f : α → Except ε β) :
    ((Except.error e : Except ε α) >>= f) = .error e := rfl

@[simp] theorem pure_eq {ε α : Type} (a : α) : (pure a : Except ε α) = .ok a := rfl

@[simp] theorem bind_ok {ε α : Type} (x : Except ε α) : (x >>= Except.ok) = x := by
  cases x <;> rfl

theorem Outcome.mapFault_eq_ok {α : Type} {g : Fault → Fault} {x : Outcome α} {a : α} :
    x.mapFault g = .ok a ↔ x = .ok a := by
  cases x <;> simp [Outcome.mapFault]

theorem Outcome.mapFault_eq_error {α : Type} {g : Fault → Fault} {x : Outcome α} {e : Failure} :
    x.mapFault g = .error e ↔ ∃ inner, x = .error inner ∧ inner.mapFault g = e := by
  cases x <;> simp [Outcome.mapFault]

theorem Outcome.adopt_eq_ok {α : Type} {toFault : String → Fault} {x : Outcome α} {a : α} :
    x.adopt toFault = .ok a ↔ x = .ok a := by
  cases x <;> simp [Outcome.adopt]

/-- A failure of an adopted function is the fault made of a complaint, or the function's own. -/
theorem Outcome.adopt_eq_error {α : Type} {toFault : String → Fault} {x : Outcome α} {e : Failure}
    (h : x.adopt toFault = .error e) :
    (∃ complaint, x = .error complaint ∧ complaint.isComplaint = true ∧
      e = .fault (toFault complaint.text)) ∨ x = .error e := by
  cases x with
  | ok a => cases h
  | error inner =>
    simp only [Outcome.adopt, Except.error.injEq] at h
    split at h
    · rename_i complains
      exact Or.inl ⟨inner, rfl, complains, h.symm⟩
    · exact Or.inr (by rw [h])

end Recast
