import Recast.Rule.Basic
import Recast.Write

/-!
Running a configuration: its rules build a new object out of a source, each writing on top of what
the ones before it wrote. A value that is not in the source is skipped. The first rule that fails
ends the run, and its fault is given the chain of rule indexes from the outermost configuration in,
and the path from the outermost source in.
-/

namespace Recast

namespace Value

/-- The fields of an object; other values have none. -/
def fields : Value → Fields
  | .object fields => fields
  | _ => []

/-- An object with more fields set, in order. -/
def withFields : Value → Fields → Value
  | .object fields, more => .object (Fields.setAll fields more)
  | v, _ => v

end Value

namespace FieldCopy

/-- The value to write in the place of the one that was found. -/
def mapped (c : FieldCopy) (value : Value) : Outcome Value :=
  match c.mapper with
  | none => .ok value
  | some m =>
    let path := c.source.text
    let result : Outcome Value := m.map value
    result.adopt fun reason => { cause := .mapperFailed m.name path reason, path }

/-- Copies a value that the validators accept. An absent value is never written, and the validators
are asked about it only where one of them requires presence. -/
def apply (c : FieldCopy) (source output : Value) : Outcome Value :=
  let value := source.resolve c.source.elements
  if value.isAbsent && !c.requiresPresence then .ok output
  else do
    Validator.checkAll value c.source.text c.validators
    if value.isAbsent then return output
    else
      let value ← c.mapped value
      (output.write c.dest value).outcome

end FieldCopy

namespace Transform

/-- Copies several fields to the paths they come from. That none of them is the root path is only
found out here, before the first is copied. -/
def copyFields (paths : List Path) (source output : Value) : Outcome Value := do
  let copies ← paths.mapM fun p => FieldCopy.ofPaths p p
  copies.foldlM (fun output c => c.apply source output) output

def copySubtree (path : Target) (source output : Value) : Outcome Value :=
  let value := source.resolve path.elements
  if value.isAbsent then .ok output else (output.write path value).outcome

/-- Sets the fields of the object at a path in the output itself. -/
def mergeObject (path : Path) (source output : Value) : Outcome Value :=
  match source.resolve path.elements with
  | .absent => .ok output
  | .object fields => .ok (output.withFields fields)
  | other => .error (.ofCause (.mergeOfNonObject other.describe) path.text)

/-- An element's identifier, if it has one, then the fields that `shape` makes of the element. -/
def shapeElement (shape : Value → Outcome Value) (idField : String) (element : Fields) :
    Outcome Value := do
  let shaped ← shape (.object element)
  let id : Fields :=
    if Fields.has idField element then [(idField, Fields.get idField element)] else []
  return .object (Fields.setAll id shaped.fields)

/-- Shapes the elements of an array, which must be objects. A fault inside an element is placed at
the element. -/
def shapeElements (shape : Value → Outcome Value) (idField : String) (path : Target) :
    Nat → List Value → Outcome (List Value)
  | _, [] => .ok []
  | position, .object element :: rest => do
    let shaped : Outcome Value := shapeElement shape idField element
    let location := path.text ++ (Element.index position).text
    let first ← shaped.mapFault (Fault.within location)
    let others ← shapeElements shape idField path (position + 1) rest
    return first :: others
  | position, other :: _ =>
    .error (.ofCause (.objectExpected position other.describe) path.text)

/-- Copies an array of objects, each of them shaped. -/
def copyArray (shape : Value → Outcome Value) (idField : String) (path : Target)
    (source output : Value) : Outcome Value :=
  match source.resolve path.elements with
  | .absent => .ok output
  | .array _ items => do
    let shaped ← shapeElements shape idField path 0 items
    (output.write path (.list shaped)).outcome
  | other => .error (.ofCause (.arrayOfObjectsExpected other.describe) path.text)

mutual

/-- The output of a configuration. -/
def run : Config → Value → Outcome Value
  | .rules rules, source => runRules rules 0 source (.object [])
  | .misplaced v, _ => .error (Config.lacksRules v)

/-- The output after the rules from `index` on. -/
def runRules : List Rule → Nat → Value → Value → Outcome Value
  | [], _, _, output => .ok output
  | rule :: rest, index, source, output => do
    let applied : Outcome Value := applyRule rule source output
    let output ← applied.mapFault (Fault.under index)
    runRules rest (index + 1) source output

/-- The output after one rule. -/
def applyRule : Rule → Value → Value → Outcome Value
  | .single copy, source, output => copy.apply source output
  | .several paths, source, output => copyFields paths source output
  | .subtree path, source, output => copySubtree path source output
  | .merge path, source, output => mergeObject path source output
  | .reconcile path config idField, source, output =>
    copyArray (fun element => run config element) idField path source output

end

end Transform

/-- A new object out of a source, built by a configuration. -/
def transform (config : Config) (source : Value) : Outcome Value :=
  match config with
  | .rules _ => Transform.run config source
  | .misplaced v => .error (.signal .type s!"Expected TransformationConfig, got {v.typeName}")

end Recast
