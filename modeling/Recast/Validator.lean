import Recast.Failure
import Recast.Text.Blank
import Recast.Value.Basic

/-!
Validators: named conditions on a value that a copy rule checks before it writes. The rules of the
library know eight of them by name; a caller can supply more. A rule runs its validators in order
and stops at the first that does not accept.
-/

namespace Recast

/-- A condition on a value and the path it was found at. One that `requiresPresence` is also asked
about absent values. -/
structure Validator where
  name : String
  requiresPresence : Bool := false
  accepts : Value → String → Outcome Bool

namespace Validator

/-- A validator that looks at the value alone. -/
def ofTest (name : String) (test : Value → Bool) : Validator :=
  { name, accepts := fun v _ => .ok (test v) }

def hasKind (kind : Kind) (v : Value) : Bool := v.kind? = some kind

def isNonEmptyString : Value → Bool
  | .string s => !Text.isBlankText s
  | _ => false

/-- Accepts whatever is present, and is asked about absent values too. -/
def required : Validator :=
  { name := "required", requiresPresence := true, accepts := fun v _ => .ok (!v.isAbsent) }

/-- The validators that have a name of their own, by name. -/
def builtIn : List Validator :=
  [ofTest "array" (hasKind .array), ofTest "boolean" (hasKind .boolean),
   ofTest "non_empty_string" isNonEmptyString, ofTest "not_null" (fun v => !v.isNull),
   ofTest "number" (hasKind .number), ofTest "object" (hasKind .object), required,
   ofTest "string" (hasKind .string)]

def named? (name : String) : Option Validator := builtIn.find? (·.name = name)

/-- Why there is no validator of a name. -/
def unknown (name : String) : Cause := .unknownName "validator" name (builtIn.map (·.name))

def named (name : String) : Outcome Validator :=
  match named? name with
  | some v => .ok v
  | none => .error (.signal .key (unknown name).message)

/-- Asks one validator about the value at a path. -/
def check (v : Validator) (value : Value) (path : String) : Outcome Unit := do
  let asked : Outcome Bool := v.accepts value path
  let accepted ← asked.adopt fun reason =>
    { cause := .validatorFailed v.name path reason, path, validator := some v.name }
  if accepted then return ()
  else throw (.fault { cause := .validatorRejected v.name path, path, validator := some v.name })

/-- Asks validators in order, up to the first that does not accept. -/
def checkAll (value : Value) (path : String) : List Validator → Outcome Unit
  | [] => .ok ()
  | v :: rest => do
    v.check value path
    checkAll value path rest

end Validator

end Recast
