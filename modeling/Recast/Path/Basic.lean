import Recast.Failure
import Recast.Text.Numeral
import Recast.Value.Basic

/-!
Paths: which accessors lead from a value to one of its parts. The empty path leads to the value
itself and is called the root path. A path remembers the text it was read from, for messages.
-/

namespace Recast

/-- One accessor: a field of an object by its name, or an item of an array by its position. -/
inductive Element where
  | field (name : String)
  | index (position : Nat)
deriving DecidableEq

namespace Element

def text : Element → String
  | .field name => name
  | .index position => "[" ++ String.ofList (Text.Numeral.write position) ++ "]"

def isIndex : Element → Bool
  | .index _ => true
  | .field _ => false

/-- Whether an accessor is no index, or one of at most as many digits as are written. -/
def isShort : Element → Bool
  | .index position => Text.Numeral.isWritable position
  | .field _ => true

/-- The accessor of a field; its name is a text and not empty. -/
def ofName : Value → Outcome Element
  | .string name =>
    if name.isEmpty then .error (.signal .value "Field name must be a non-empty string")
    else .ok (.field name)
  | _ => .error (.signal .value "Field name must be a non-empty string")

/-- The accessor of an item; its position is an integer and not negative. -/
def ofPosition : Value → Outcome Element
  | .int position =>
    if position < 0 then .error (.signal .value "Index position must be non-negative")
    else .ok (.index position.toNat)
  | _ => .error (.signal .value "Index position must be an integer")

end Element

structure Path where
  elements : List Element
  raw : String
deriving DecidableEq

namespace Path

/-- Elements after others: a field is set off by a point. -/
def renderTail : List Element → String
  | [] => ""
  | .field name :: rest => "." ++ name ++ renderTail rest
  | .index position :: rest => (Element.index position).text ++ renderTail rest

/-- The elements in path notation; a field in front has no point. -/
def renderElements : List Element → String
  | [] => ""
  | first :: rest => first.text ++ renderTail rest

def render (p : Path) : String := renderElements p.elements

/-- The path in messages: as it was written, else in path notation. -/
def text (p : Path) : String := if p.raw.isEmpty then p.render else p.raw

/-- Whether messages can show the path: it is shown as it was written, or its indexes are short. -/
def isTellable (p : Path) : Bool := !p.raw.isEmpty || p.elements.all Element.isShort

def isRoot (p : Path) : Bool := p.elements.isEmpty

/-- The names of the field accessors, in order. -/
def fieldNames (p : Path) : List String :=
  p.elements.filterMap fun
    | .field name => some name
    | .index _ => none

def hasIndex (p : Path) : Bool := p.elements.any Element.isIndex

end Path

/-- A path that is not the root path: a place that a rule can write to. -/
structure Target where
  path : Path
  not_root : path.isRoot = false

instance : CoeOut Target Path := ⟨Target.path⟩

end Recast
