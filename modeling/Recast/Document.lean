import Recast.Extract
import Recast.Json.Check
import Recast.Json.Printer
import Recast.Projection
import Recast.Translate

/-!
Documents: values that the library vouches for at the top, where a foreign value is refused. What a
document holds is asked by path; what is made of it is a new document. A session is a document that
is replaced by what is made of it, step by step; a step that fails leaves it as it was.
-/

namespace Recast

structure Document where
  value : Value
  has_kind : value.kind?.isSome = true

namespace Document

def ofValue (v : Value) : Outcome Document :=
  if h : v.kind?.isSome = true then .ok ⟨v, h⟩
  else .error (.ofCause (.unsupportedType v.typeName) none)

def absent : Document := ⟨.absent, rfl⟩

/-- The document that a JSON text holds. -/
def parse (text : Value) : Outcome Document := do ofValue (← Json.parse text)

def kind (d : Document) : Kind := d.value.kind?.get d.has_kind

/-- The part at a path, absent where the path leads nowhere. -/
def navigate (d : Document) (path : Path) : Outcome Document :=
  ofValue (d.value.resolve path.elements)

def exists? (d : Document) (path : Path) : Bool := !(d.value.resolve path.elements).isAbsent

def isNull (d : Document) (path : Path) : Bool := (d.value.resolve path.elements).isNull

def contains (d : Document) (path : Path) (expected : Value) : Bool :=
  d.value.contains path expected

def equals (a b : Document) : Except Fault Bool := Value.strictEq a.value b.value

def print (layout : Json.Layout) (d : Document) : Except Fault String := Json.print layout d.value

/-- A one-line description. -/
def describe (d : Document) : Except Fault String :=
  if d.value.isAbsent then .ok "Json(ABSENT)"
  else do
    let text ← d.print .compact
    return "Json(" ++ text ++ ")"

def transform (d : Document) (config : Config) : Outcome Document := do
  ofValue (← Recast.transform config d.value)

def translate (d : Document) (override : Value) (config? : Option Config) : Outcome Document := do
  ofValue (← Recast.translate d.value override config?)

def only (d : Document) (selection : Value) : Outcome Document := do
  ofValue (← Recast.only d.value selection)

end Document

/-- What a session does with its document. -/
inductive Step where
  | navigate (path : Path)
  | transform (config : Config)
  | translate (override : Value) (config? : Option Config)
  | only (selection : Value)

namespace Session

/-- The document that a step makes of another. -/
def make (d : Document) : Step → Outcome Document
  | .navigate path => d.navigate path
  | .transform config => d.transform config
  | .translate override config? => d.translate override config?
  | .only selection => d.only selection

/-- The document after a step. -/
def advance (d : Document) (s : Step) : Document :=
  match make d s with
  | .ok next => next
  | .error _ => d

/-- The document after steps in order. -/
def run (d : Document) (steps : List Step) : Document := steps.foldl advance d

end Session

end Recast
