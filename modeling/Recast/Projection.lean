import Recast.Failure
import Recast.Value.Basic

/-!
Keeping some of an object's fields. Main statement: of the names that are kept, a name holds what it
held before, and every other name holds nothing (`get_keep`).
-/

namespace Recast

/-- The fields whose names are among those to keep, in their own order. -/
def Fields.keep (names : List String) (fields : Fields) : Fields :=
  fields.filter fun f => names.contains f.1

theorem Fields.get_keep (names : List String) (fields : Fields) (name : String) :
    Fields.get name (Fields.keep names fields) =
      if names.contains name then Fields.get name fields else .absent := by
  induction fields with
  | nil => simp [Fields.keep, Fields.get]
  | cons field rest ih =>
    obtain ⟨key, v⟩ := field
    simp only [Fields.keep, List.filter_cons, List.contains_eq_mem, decide_eq_true_eq] at ih ⊢
    by_cases hk : key ∈ names
    · by_cases h : key = name
      · subst h
        simp [hk, Fields.get]
      · simp [hk, Fields.get, h, ih]
    · by_cases h : key = name
      · subst h
        simp [hk, ih]
      · simp [hk, Fields.get, h, ih]

namespace Projection

/-- What makes an item unfit for a set of names, if it is. -/
def unfit? : Value → Option Failure
  | .array false _ => some (.signal .type "unhashable type: 'list'")
  | .object _ => some (.signal .type "unhashable type: 'dict'")
  | _ => none

/-- The names in a collection of items; items that are no texts name nothing. -/
def ofItems (items : List Value) : Outcome (List String) :=
  match items.findSome? unfit? with
  | some failure => .error failure
  | none => .ok <| items.filterMap fun
      | .string name => some name
      | _ => none

/-- The names that a selection stands for: a text is one name, an array lists names, and an object
stands for the names of its fields. -/
def names : Value → Outcome (List String)
  | .string name => .ok [name]
  | .array _ items => ofItems items
  | .object fields => .ok (Fields.names fields)
  | other => .error (.signal .type s!"'{other.typeName}' object is not iterable")

end Projection

/-- An object with the selected fields only. -/
def only (v : Value) (selection : Value) : Outcome Value :=
  match v with
  | .object fields => do
    let names ← Projection.names selection
    return .object (Fields.keep names fields)
  | other => .error (.ofCause (.filterOfNonObject other.describe) none)

end Recast
