import Recast.Rule.Basic
import Recast.Value.Literal

/-!
Rule documents: configurations written as JSON. A document is a list of rules or an object whose
field `rules` is one; a rule is an object whose field `type` says which rule it is. Whatever is
wrong with a rule is a fault of the configuration whose path is the rule's location in the document,
unless the rule's type is unknown and no message can spell it out.
-/

namespace Recast

namespace Rule

/-- The rule types that a document can name. -/
def types : List String :=
  ["copy_field", "copy_fields", "copy", "merge_object", "copy_array_of_objects"]

/-- A member of a rule's object, null if it is missing. -/
def memberOf (name : String) (fields : Fields) : Value :=
  if Fields.has name fields then Fields.get name fields else .null

/-- A member that must be a text. -/
def textOf (name location : String) (fields : Fields) : Outcome Value :=
  match memberOf name fields with
  | .string s => .ok (.string s)
  | _ => .error (.ofCause (.memberNotText name) location)

/-- A member that must be a list; a missing one is empty. -/
def listOf (name location : String) (fields : Fields) : Outcome (List Value) :=
  if Fields.has name fields then
    match Fields.get name fields with
    | .array false items => .ok items
    | _ => .error (.ofCause (.memberNotList name) location)
  else .ok []

/-- The failures of building a rule as faults at its location. A path that cannot be read is named
behind the location. -/
def locate {α : Type} (location : String) : Outcome α → Outcome α
  | .error (.fault f) =>
    if f.kind = .malformedPath then
      let path := f.path.getD "None"
      .error (.ofCause (.invalidRulePath f.message) s!"{location}: {path}")
    else .error (.fault f)
  | .error (.signal .value message) => .error (.ofCause (.invalidRule message) location)
  | other => other

/-- The name in a reference to a validator or mapper: a text, or an object's member `name`. -/
def referenceName : Value → Value
  | .object fields => memberOf "name" fields
  | v => v

/-- The validator that a document refers to. -/
def loadValidator (reference : Value) (location : String) : Outcome Validator :=
  match referenceName reference with
  | .string name =>
    match Validator.named? name with
    | some v => .ok v
    | none => .error (.ofCause (Validator.unknown name) location)
  | _ => .error (.ofCause (.unnamed "Validator") location)

def loadValidators (location : String) : Nat → List Value → Outcome (List Validator)
  | _, [] => .ok []
  | position, reference :: rest => do
    let first ← loadValidator reference s!"{location}.validators[{position}]"
    let others ← loadValidators location (position + 1) rest
    return first :: others

/-- The options in a reference to a mapper: the members of an object other than `name`. -/
def referenceOptions : Value → Fields
  | .object fields => fields.filter fun f => f.1 ≠ "name"
  | _ => []

/-- The mapper that a document refers to. -/
def loadMapper (reference : Value) (location : String) : Outcome Mapper :=
  match referenceName reference with
  | .string name =>
    match Mapper.named? name with
    | none => .error (.ofCause (Mapper.unknown name) location)
    | some build =>
      let built : Outcome Mapper := build (referenceOptions reference)
      built.adopt fun reason => { cause := .invalidOptions name reason, path := some location }
  | _ => .error (.ofCause (.unnamed "Mapper") location)

def loadCopyField (fields : Fields) (location : String) : Outcome Rule := do
  let source ← textOf "from" location fields
  let dest := match memberOf "to" fields with
    | .null => none
    | dest => some dest
  let copy ← copyField source dest
  let references ← listOf "validators" location fields
  let validators ← loadValidators location 0 references
  let mapper ← match memberOf "mapper" fields with
    | .null => pure none
    | reference => some <$> loadMapper reference (location ++ ".mapper")
  return .single { copy with validators, mapper }

def isText : Value → Bool
  | .string _ => true
  | _ => false

def loadCopyFields (fields : Fields) (location : String) : Outcome Rule := do
  let names ← listOf "fields" location fields
  if names.isEmpty || !names.all isText then throw (.ofCause .fieldsNotNames location)
  else copyFields names

def loadCopy (fields : Fields) (location : String) : Outcome Rule := do
  let path ← Path.ofValue (← textOf "path" location fields)
  copy path

def loadMerge (fields : Fields) : Outcome Rule := do
  let path := if Fields.has "path" fields then Fields.get "path" fields else .string ""
  return .merge (← Path.ofValue path)

/-- The refusal of a rule's type, which names the value in its place. -/
def unknownType (type : Value) (location : String) : Outcome String := do
  let shown ← type.literal
  throw (.ofCause (.unknownRuleType shown types) location)

/-- The type of a rule's object, which must be one of those that a document can name. -/
def typeOf (fields : Fields) (location : String) : Outcome String :=
  match memberOf "type" fields with
  | .string name => if name ∈ types then .ok name else unknownType (.string name) location
  | other => unknownType other location

/-- The rule of an object of a known type, where `nested` reads the configuration inside it. -/
def loadObject (type : String) (fields : Fields) (nested : String → Outcome (List Rule))
    (location : String) : Outcome Rule :=
  match type with
  | "copy_field" => loadCopyField fields location
  | "copy_fields" => loadCopyFields fields location
  | "copy" => loadCopy fields location
  | "merge_object" => loadMerge fields
  | _ => do
    let rules ← nested (location ++ ".rules")
    let path ← textOf "path" location fields
    let idField ← textOf "id_field" location fields
    copyArray (← Path.ofValue path) (.rules rules) idField

/-- Where a list of rules is needed and something else is found. -/
def rulesExpected (v : Value) (location : String) : Outcome (List Rule) :=
  .error (.ofCause (.rulesExpected v.typeName) location)

mutual

/-- The rule that a value describes. The refusal of its type is not one of the failures of building
it. -/
def load : Value → String → Outcome Rule
  | .object fields, location => do
    let type ← typeOf fields location
    let built : Outcome Rule :=
      loadObject type fields (fun inner => loadNested fields inner) location
    locate location built
  | other, location => .error (.ofCause (.ruleNotObject other.typeName) location)

/-- The rules of the first field called `rules`; none if there is no such field. -/
def loadNested : List (String × Value) → String → Outcome (List Rule)
  | [], _ => .ok []
  | (name, v) :: rest, location =>
    if name = "rules" then loadRules v location else loadNested rest location

/-- The rules of a document, which is a list, or an object that has one. -/
def loadRules : Value → String → Outcome (List Rule)
  | .array false items, location => loadItems location 0 items
  | .object fields, location => loadMember fields location
  | other, location => rulesExpected other location

/-- The rules in the member `rules` of an object. -/
def loadMember : List (String × Value) → String → Outcome (List Rule)
  | [], location => rulesExpected (.object []) location
  | (name, v) :: rest, location =>
    if name = "rules" then loadList v location else loadMember rest location

def loadList : Value → String → Outcome (List Rule)
  | .array false items, location => loadItems location 0 items
  | other, location => rulesExpected other location

def loadItems (location : String) : Nat → List Value → Outcome (List Rule)
  | _, [] => .ok []
  | position, v :: rest => do
    let first ← load v s!"{location}[{position}]"
    let others ← loadItems location (position + 1) rest
    return first :: others

end

end Rule

/-- The configuration that a rule document describes. -/
def Config.load (document : Value) : Outcome Config :=
  .rules <$> Rule.loadRules document "rules"

end Recast
