import Recast.Double.Basic

/-!
The values that documents are made of: JSON data, with integers of any size apart from doubles and
with object fields in order. Two more constructors stand for what is no JSON data: `absent`, where
nothing was found, and `foreign`, a value of the caller's that the library only carries.

Fields are a list of named values. Main statements: what a name holds after `set` (`get_set_self`,
`get_set_of_ne`).
-/

namespace Recast

/-- A value. A `fixed` array can be read like any other, but is never written into. -/
inductive Value where
  | absent
  | null
  | bool (b : Bool)
  | int (n : Int)
  | double (d : Double)
  | string (s : String)
  | array (fixed : Bool) (items : List Value)
  | object (fields : List (String × Value))
  | foreign (typeName text : String)

/-- The fields of an object, in order. -/
abbrev Fields := List (String × Value)

instance : Inhabited Value := ⟨.absent⟩

namespace Fields

/-- What a name holds, absent if there is no such field. -/
def get (name : String) : Fields → Value
  | [] => .absent
  | (key, value) :: rest => if key = name then value else get name rest

def has (name : String) (fields : Fields) : Bool := fields.any (·.1 = name)

/-- The fields with a name holding a value: in its old place, or at the end if it is new. -/
def set (name : String) (value : Value) : Fields → Fields
  | [] => [(name, value)]
  | (key, old) :: rest =>
    if key = name then (key, value) :: rest else (key, old) :: set name value rest

/-- The fields after setting each of `more`, in order. -/
def setAll (fields more : Fields) : Fields :=
  more.foldl (fun fs field => set field.1 field.2 fs) fields

def names (fields : Fields) : List String := fields.map (·.1)

@[simp] theorem get_set_self (name : String) (value : Value) (fields : Fields) :
    get name (set name value fields) = value := by
  induction fields with
  | nil => simp [set, get]
  | cons field rest ih =>
    obtain ⟨key, old⟩ := field
    by_cases h : key = name <;> simp [set, get, h, ih]

theorem get_set_of_ne {name other : String} (h : other ≠ name) (value : Value) (fields : Fields) :
    get other (set name value fields) = get other fields := by
  induction fields with
  | nil => simp [set, get, Ne.symm h]
  | cons field rest ih =>
    obtain ⟨key, old⟩ := field
    by_cases hk : key = name
    · subst hk
      simp [set, get, Ne.symm h]
    · by_cases ho : key = other
      · subst ho
        simp [set, get, h]
      · simp [set, get, hk, ho, ih]

end Fields

/-- The kinds of values that rules and messages speak of. -/
inductive Kind where
  | object
  | array
  | string
  | number
  | boolean
  | null
  | absent
deriving DecidableEq

def Kind.name : Kind → String
  | .object => "object"
  | .array => "array"
  | .string => "string"
  | .number => "number"
  | .boolean => "boolean"
  | .null => "null"
  | .absent => "absent"

namespace Value

/-- An array that can be written into. -/
def list (items : List Value) : Value := .array false items

/-- The kind of a value; a foreign one has none. -/
def kind? : Value → Option Kind
  | .absent => some .absent
  | .null => some .null
  | .bool _ => some .boolean
  | .int _ | .double _ => some .number
  | .string _ => some .string
  | .array .. => some .array
  | .object _ => some .object
  | .foreign .. => none

/-- The name that messages give to the type of a value, finer than its kind. -/
def typeName : Value → String
  | .absent => "absent"
  | .null => "NoneType"
  | .bool _ => "bool"
  | .int _ => "int"
  | .double _ => "float"
  | .string _ => "str"
  | .array fixed _ => if fixed then "tuple" else "list"
  | .object _ => "dict"
  | .foreign typeName _ => typeName

/-- The kind's name, or the type's where there is no kind. -/
def describe (v : Value) : String :=
  match v.kind? with
  | some kind => kind.name
  | none => v.typeName

def isAbsent : Value → Bool
  | .absent => true
  | _ => false

def isNull : Value → Bool
  | .null => true
  | _ => false

def isObject : Value → Bool
  | .object _ => true
  | _ => false

/-- Whether a value is an array that can be written into. -/
def isList : Value → Bool
  | .array fixed _ => !fixed
  | _ => false

/-- Whether a value counts as true where only yes or no matters: absence, null, false, zeros and
whatever is empty do not. -/
def truthy : Value → Bool
  | .absent | .null => false
  | .bool b => b
  | .int n => n ≠ 0
  | .double d => !d.isZero
  | .string s => !s.isEmpty
  | .array _ items => !items.isEmpty
  | .object fields => !fields.isEmpty
  | .foreign _ text => !text.isEmpty

mutual

/-- How many containers enclose the most deeply enclosed member of a value. Fixed arrays count as
members themselves. -/
def depth : Value → Nat
  | .array false items => depthItems items
  | .object fields => depthFields fields
  | _ => 0

def depthItems : List Value → Nat
  | [] => 0
  | v :: rest => max (v.depth + 1) (depthItems rest)

def depthFields : List (String × Value) → Nat
  | [] => 0
  | (_, v) :: rest => max (v.depth + 1) (depthFields rest)

end

mutual

/-- Whether a test holds of a value and of everything inside it. -/
def all (test : Value → Bool) : Value → Bool
  | .array fixed items => test (.array fixed items) && allItems test items
  | .object fields => test (.object fields) && allFields test fields
  | v => test v

def allItems (test : Value → Bool) : List Value → Bool
  | [] => true
  | v :: rest => v.all test && allItems test rest

def allFields (test : Value → Bool) : List (String × Value) → Bool
  | [] => true
  | (_, v) :: rest => v.all test && allFields test rest

end

end Value

end Recast
