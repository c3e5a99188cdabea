import Recast.Failure
import Recast.Value.Basic

/-!
Strict equality of JSON values: booleans differ from numbers, integers and doubles are compared by
their exact worth, and the order of fields does not matter while the order of items does. Foreign
values cannot be compared, so a comparison that meets one fails; one that is settled before does
not.
-/

namespace Recast.Value

/-- The kind of a value, or the fault that it has none. -/
def kind (v : Value) : Except Fault Kind :=
  match v.kind? with
  | some kind => .ok kind
  | none => .error { cause := .unsupportedType v.typeName }

/-- Equality of values that hold no others. -/
def scalarEq : Value → Value → Bool
  | .absent, .absent => true
  | .null, .null => true
  | .bool a, .bool b => a == b
  | .int a, .int b => a == b
  | .int a, .double b => Double.eqInt a b
  | .double a, .int b => Double.eqInt b a
  | .double a, .double b => Double.numEq a b
  | .string a, .string b => a == b
  | _, _ => false

mutual

/-- Whether two values are equal, compared member by member until one pair differs. -/
def strictEq : Value → Value → Except Fault Bool
  | .object fields, .object others =>
    if fields.length = others.length && fields.all (fun f => Fields.has f.1 others) then
      strictEqFields fields others
    else .ok false
  | .array _ items, .array _ others =>
    if items.length = others.length then strictEqItems items others else .ok false
  | a, b => do
    let _ ← a.kind
    let _ ← b.kind
    return scalarEq a b

def strictEqItems : List Value → List Value → Except Fault Bool
  | a :: rest, b :: others => do
    if ← strictEq a b then strictEqItems rest others else return false
  | _, _ => .ok true

/-- Whether each field equals the one of the same name in `others`. -/
def strictEqFields : List (String × Value) → Fields → Except Fault Bool
  | [], _ => .ok true
  | (name, a) :: rest, others => do
    if ← strictEq a (Fields.get name others) then strictEqFields rest others else return false

end

end Recast.Value
