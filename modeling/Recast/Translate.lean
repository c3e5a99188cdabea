import Recast.Transform
import Recast.Value.Key

/-!
Laying one document over another. Objects are merged field by field: the base's fields keep their
places, and fields of the override alone follow them. Two arrays are merged element by element where
a configuration says so, by the identity keys of their elements' identifiers; everything else of the
override replaces the base.

Where arrays are reconciled is told by locations: the names of the fields on the way, with a step of
its own into the elements of a reconciled array.
-/

namespace Recast

abbrev Location := List String

namespace Location

/-- The step from a reconciled array into its elements. -/
def element : String := "[]"

/-- Lexicographic order, name by name. -/
def le : Location → Location → Bool
  | [], _ => true
  | _ :: _, [] => false
  | a :: rest, b :: others => a < b || (a == b && le rest others)

end Location

/-- The identifier field of each reconciled array, by location. Of two entries for one location the
later counts. -/
abbrev Locations := List (Location × String)

namespace Locations

def idField? (locations : Locations) (here : Location) : Option String :=
  locations.reverse.lookup here

/-- Each location once, in lexicographic order, with the identifier field that counts for it. -/
def entries (locations : Locations) : Locations :=
  let distinct := (locations.map (·.1)).eraseDups
  (distinct.mergeSort Location.le).filterMap fun here =>
    (locations.idField? here).map fun id => (here, id)

end Locations

mutual

/-- The arrays that a configuration reconciles, for a source that is itself at `here`. -/
def Config.locations (here : Location) : Config → Outcome Locations
  | .rules rules => rulesLocations here rules
  | .misplaced v => .error (Config.lacksRules v)

def rulesLocations (here : Location) : List Rule → Outcome Locations
  | [] => .ok []
  | rule :: rest => do
    let first ← rule.locations here
    let others ← rulesLocations here rest
    return first ++ others

/-- The array that a rule reconciles, then those below its elements. An array that is reached
through an index has no location of its own and is not reconciled. -/
def Rule.locations (here : Location) : Rule → Outcome Locations
  | .reconcile path config idField =>
    if path.path.hasIndex then .ok []
    else do
      let array := here ++ path.path.fieldNames
      let inner ← config.locations (array ++ [Location.element])
      return (array, idField) :: inner
  | .single _ => .ok []
  | .several _ => .ok []
  | .subtree _ => .ok []
  | .merge _ => .ok []

end

namespace Translate

/-- An element's identifier, if it is an object that has one. -/
def idOf? (idField : String) : Value → Option Value
  | .object fields => if Fields.has idField fields then some (Fields.get idField fields) else none
  | _ => none

/-- The identity keys of the elements that have an identifier, each with the element's position. -/
def idIndex (idField : String) : Nat → List Value → Except Fault (List (Key × Nat))
  | _, [] => .ok []
  | position, element :: rest =>
    match idOf? idField element with
    | none => idIndex idField (position + 1) rest
    | some id => do
      let key ← id.key
      let others ← idIndex idField (position + 1) rest
      return (key, position) :: others

/-- The items from `position` on whose positions are not among those matched. -/
def unmatched (matched : List Nat) : Nat → List Value → List Value
  | _, [] => []
  | position, v :: rest =>
    if matched.contains position then unmatched matched (position + 1) rest
    else v :: unmatched matched (position + 1) rest

mutual

/-- An override laid over a base, both at `here`. -/
def merge (locations : Locations) (here : Location) : Value → Value → Except Fault Value
  | .object fields, .object others => do
    let merged ← mergeFields locations here fields others
    return .object (merged ++ others.filter fun f => !Fields.has f.1 fields)
  | .array _ items, .array fixed others =>
    match locations.idField? here with
    | none => .ok (.array fixed others)
    | some idField => do
      let index ← idIndex idField 0 others
      let (merged, matched) ← mergeItems locations here idField index others [] items
      return .list (merged ++ unmatched matched 0 others)
  | _, override => .ok override

/-- The base's fields, each with the override's field of the same name laid over it. -/
def mergeFields (locations : Locations) (here : Location) :
    List (String × Value) → Fields → Except Fault Fields
  | [], _ => .ok []
  | (name, v) :: rest, others => do
    let merged ←
      if Fields.has name others then merge locations (here ++ [name]) v (Fields.get name others)
      else pure v
    let tail ← mergeFields locations here rest others
    return (name, merged) :: tail

/-- The base's elements, each with the first override of an equal identifier laid over it. Elements
without such an override are dropped, and an override is used once. Also gives the positions of the
overrides that were used. -/
def mergeItems (locations : Locations) (here : Location) (idField : String)
    (index : List (Key × Nat)) (others : List Value) (matched : List Nat) :
    List Value → Except Fault (List Value × List Nat)
  | [] => .ok ([], matched)
  | element :: rest =>
    match idOf? idField element with
    | none => mergeItems locations here idField index others matched rest
    | some id => do
      let key ← id.key
      match index.lookup key with
      | none => mergeItems locations here idField index others matched rest
      | some position =>
        if matched.contains position then
          mergeItems locations here idField index others matched rest
        else
          let merged ←
            merge locations (here ++ [Location.element]) element (Value.item position others)
          let (tail, used) ←
            mergeItems locations here idField index others (position :: matched) rest
          return (merged :: tail, used)

end

end Translate

/-- An override laid over a base. With a configuration the override is first transformed by it, and
the arrays that it reconciles are merged element by element. -/
def translate (base override : Value) (config? : Option Config) : Outcome Value := do
  let (shaped, locations) ← match config? with
    | none => pure (override, [])
    | some config =>
      let shaped ← transform config override
      let locations ← config.locations []
      pure (shaped, locations)
  (Translate.merge locations [] base shaped).mapError .fault

end Recast
