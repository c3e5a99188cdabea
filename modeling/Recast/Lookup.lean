import Recast.Path.Basic
import Recast.Value.Equality

/-!
Finding the part of a value that a path leads to. A lookup always has an answer: where the path
leads nowhere it is absent. A broadcast lookup applies a field accessor that meets an array to each
of its items, at any depth of arrays, and keeps what is found. Main statements: the parts of an
absent value are absent (`resolve_absent`), and lookups compose (`resolve_append`).
-/

namespace Recast.Value

/-- The item at a position. -/
def item (position : Nat) : List Value → Value
  | [] => .absent
  | v :: rest => if position = 0 then v else item (position - 1) rest

/-- The part that one accessor selects. -/
def select (v : Value) : Element → Value
  | .field name =>
    match v with
    | .object fields => Fields.get name fields
    | _ => .absent
  | .index position =>
    match v with
    | .array _ items => item position items
    | _ => .absent

/-- The part of a value that a path leads to. -/
def resolve : List Element → Value → Value
  | [], v => v
  | e :: rest, v => resolve rest (v.select e)

/-- The array of what was found in the items; absent if there were items and nothing was found. -/
def collect (items found : List Value) : Value :=
  let present := found.filter fun v => !v.isAbsent
  if present.isEmpty && !items.isEmpty then .absent else .list present

mutual

/-- What `find` finds in an object, or in the objects that an array holds at any depth. -/
def spread (find : Fields → Value) : Value → Value
  | .object fields => find fields
  | .array _ items => collect items (spreadItems find items)
  | _ => .absent

def spreadItems (find : Fields → Value) : List Value → List Value
  | [] => []
  | v :: rest => spread find v :: spreadItems find rest

end

/-- The part of a value that a path leads to when its field accessors apply to the items of arrays.
-/
def broadcast : List Element → Value → Value
  | [], v => v
  | .field name :: rest, v => spread (fun fields => broadcast rest (Fields.get name fields)) v
  | .index position :: rest, v => broadcast rest (v.select (.index position))

@[simp] theorem select_absent (e : Element) : Value.absent.select e = .absent := by
  cases e <;> rfl

@[simp] theorem resolve_absent (p : List Element) : resolve p .absent = .absent := by
  induction p with
  | nil => rfl
  | cons e rest ih => simp [resolve, ih]

theorem resolve_append (p q : List Element) (v : Value) :
    resolve (p ++ q) v = resolve q (resolve p v) := by
  induction p generalizing v with
  | nil => rfl
  | cons e rest ih => simp [resolve, ih]

/-- Whether some item equals a value. The scan ends at the first item that does, or that cannot be
compared. -/
def anyEquals (expected : Value) : List Value → Except Fault Bool
  | [] => .ok false
  | v :: rest => do
    if ← strictEq v expected then return true else anyEquals expected rest

/-- Whether a value equals another or is an array with an item that does. -/
def holds (found expected : Value) : Except Fault Bool :=
  if found.isAbsent then .ok false
  else do
    if ← strictEq found expected then return true
    else
      match found with
      | .array _ items => anyEquals expected items
      | _ => return false

/-- Whether the part at a path equals a value or holds it as an item; a comparison that fails
settles the question with no. -/
def contains (v : Value) (p : Path) (expected : Value) : Bool :=
  match (resolve p.elements v).holds expected with
  | .ok found => found
  | .error _ => false

end Recast.Value
