import Recast.Mapper
import Recast.Path.Reader
import Recast.Validator

/-!
Rules and configurations. A rule copies or merges a part of a source into an output; a configuration
is an ordered list of rules. The rule that reconciles an array has a configuration of its own for
the array's elements, so rules nest. In the place of a configuration there may be some other value;
this is noticed when the configuration is used.
-/

namespace Recast

namespace Target

/-- A path as a target; `message` tells why the root path will not do. -/
def ofPath (p : Path) (message : String) : Outcome Target :=
  if h : p.isRoot = false then .ok ⟨p, h⟩ else .error (.signal .value message)

def elements (t : Target) : List Element := t.path.elements

def text (t : Target) : String := t.path.text

end Target

/-- Copies one value from a place in the source to a place in the output. -/
structure FieldCopy where
  source : Target
  dest : Target
  validators : List Validator := []
  mapper : Option Mapper := none

namespace FieldCopy

def ofPaths (source dest : Path) : Outcome FieldCopy := do
  let message := "FieldCopy source and dest must not be the root path"
  let source ← Target.ofPath source message
  let dest ← Target.ofPath dest message
  return { source, dest }

/-- Whether the rule's validators are asked about an absent value too. -/
def requiresPresence (c : FieldCopy) : Bool := c.validators.any (·.requiresPresence)

end FieldCopy

mutual

/-- An ordered list of rules, or some other value in its place. -/
inductive Config where
  | rules (rules : List Rule)
  | misplaced (value : Value)

/-- A rule. `several` copies values to the paths they come from, `subtree` one value unchanged,
`merge` the fields of an object into the output itself. `reconcile` copies an array of objects
through a configuration; its elements are told apart by the field `idField`. -/
inductive Rule where
  | single (copy : FieldCopy)
  | several (paths : List Path)
  | subtree (path : Target)
  | merge (path : Path)
  | reconcile (path : Target) (config : Config) (idField : String)

end

namespace Rule

/-- Copies what is at `source` to `dest`, or to the same path if there is none. -/
def copyField (source : Value) (dest : Option Value) : Outcome FieldCopy := do
  let source ← Path.ofValue source
  let dest ← match dest with
    | some dest => Path.ofValue dest
    | none => pure source
  FieldCopy.ofPaths source dest

/-- Copies several fields; a name that occurs again is dropped. -/
def copyFields (names : List Value) : Outcome Rule := do
  let paths ← names.mapM Path.ofValue
  let distinct := paths.foldl (fun kept p => if kept.contains p then kept else kept ++ [p]) []
  if distinct.isEmpty then
    throw (.signal .value "FieldsCopy needs at least one field name")
  else return .several distinct

def copy (path : Path) : Outcome Rule :=
  .subtree <$> Target.ofPath path "SubtreeCopy path must not be the root path"

/-- Copies an array of objects through a configuration; the name of the field that tells them apart
must be a text and not empty. -/
def copyArray (path : Path) (config : Config) (idField : Value) : Outcome Rule := do
  let target ← Target.ofPath path "ArrayReconcile path must not be the root path"
  let refusal := Failure.signal .value "ArrayReconcile id_field must be a non-empty string"
  match idField with
  | .string name => if name.isEmpty then throw refusal else return .reconcile target config name
  | _ => throw refusal

end Rule

namespace Config

/-- The rules of a configuration; none if it is misplaced. -/
def toList : Config → List Rule
  | .rules list => list
  | .misplaced _ => []

/-- Where rules are needed and something else is found. -/
def lacksRules (v : Value) : Failure :=
  .signal .attribute s!"'{v.typeName}' object has no attribute 'rules'"

end Config

end Recast
