import Recast.Decoder
import Recast.Lookup

/-!
Extraction: the part of a value that a path leads to, decoded. Paths are followed by broadcasting.
Extraction fails if nothing is found or the decoder complains; an attempt turns these two failures
into a result, and the optional form turns the first of them into null.
-/

namespace Recast

namespace Extract

/-- Decodes what was found at a path; a complaint becomes a fault that names the path. -/
def decoded (decode : Decoder) (path : Path) (found : Value) : Outcome Value :=
  let result : Outcome Value := decode found
  result.adopt fun reason => { cause := .undecodable reason, path := some path.text }

/-- What a path leads to, if there is anything. -/
def present (v : Value) (path : Path) : Outcome Value :=
  let found := v.broadcast path.elements
  if found.isAbsent then .error (.ofCause .pathMissing path.text) else .ok found

end Extract

/-- The value at a path, decoded if there is a decoder. -/
def extract (v : Value) (path : Path) (decode? : Option Decoder) : Outcome Value := do
  let found ← Extract.present v path
  match decode? with
  | none => return found
  | some decode => Extract.decoded decode path found

/-- The array at a path, its items decoded if there is a decoder. -/
def extractList (v : Value) (path : Path) (decode? : Option Decoder) : Outcome Value := do
  let found ← Extract.present v path
  match found with
  | .array _ items =>
    match decode? with
    | none => return .list items
    | some decode => .list <$> items.mapM (Extract.decoded decode path)
  | other => throw (.ofCause (.arrayExpected other.typeName) path.text)

/-- An extraction that gives null where nothing is found. -/
def Extract.optional (result : Outcome Value) : Outcome Value :=
  match result with
  | .error (.fault f) => if f.kind = .pathNotFound then .ok .null else .error (.fault f)
  | other => other

/-- The result of an attempt: a value, or the fault that stands for it. -/
inductive Attempt where
  | success (value : Value)
  | failed (fault : Fault)

namespace Attempt

/-- An extraction as an attempt. Only a missing path and a value of the wrong kind are results;
every other failure stays one. -/
def ofOutcome : Outcome Value → Outcome Attempt
  | .ok v => .ok (.success v)
  | .error (.fault f) =>
    if f.kind = .pathNotFound ∨ f.kind = .typeMismatch then .ok (.failed f) else .error (.fault f)
  | .error failure => .error failure

def get : Attempt → Except Fault Value
  | .success v => .ok v
  | .failed f => .error f

def getOr (default : Value) : Attempt → Value
  | .success v => v
  | .failed _ => default

end Attempt

end Recast
