import Recast.Value.Basic

/-!
Equality of values as trees, which is finer than strict equality: the order of fields, the kind of
arrays and the spelling of numbers all count. Main statement: it is decidable (`same_iff`).
-/

namespace Recast.Value

mutual

/-- Whether two values are the same tree. -/
def same : Value → Value → Bool
  | .absent, .absent => true
  | .null, .null => true
  | .bool a, .bool b => a == b
  | .int a, .int b => a == b
  | .double a, .double b => a == b
  | .string a, .string b => a == b
  | .array f a, .array g b => f == g && sameItems a b
  | .object a, .object b => sameFields a b
  | .foreign m a, .foreign n b => m == n && a == b
  | _, _ => false

def sameItems : List Value → List Value → Bool
  | [], [] => true
  | a :: rest, b :: others => a.same b && sameItems rest others
  | _, _ => false

def sameFields : List (String × Value) → List (String × Value) → Bool
  | [], [] => true
  | (m, a) :: rest, (n, b) :: others => m == n && a.same b && sameFields rest others
  | _, _ => false

end

mutual

theorem same_iff : (a b : Value) → (a.same b = true ↔ a = b)
  | .absent, b => by cases b <;> simp [same]
  | .null, b => by cases b <;> simp [same]
  | .bool _, b => by cases b <;> simp [same]
  | .int _, b => by cases b <;> simp [same]
  | .double _, b => by cases b <;> simp [same]
  | .string _, b => by cases b <;> simp [same]
  | .foreign _ _, b => by cases b <;> simp [same]
  | .array _ items, b => by
    cases b with
    | array _ others => simp [same, sameItems_iff items others]
    | _ => simp [same]
  | .object fields, b => by
    cases b with
    | object others => simp [same, sameFields_iff fields others]
    | _ => simp [same]

theorem sameItems_iff : (a b : List Value) → (sameItems a b = true ↔ a = b)
  | [], b => by cases b <;> simp [sameItems]
  | a :: rest, b => by
    cases b with
    | nil => simp [sameItems]
    | cons b others => simp [sameItems, same_iff a b, sameItems_iff rest others]

theorem sameFields_iff : (a b : List (String × Value)) → (sameFields a b = true ↔ a = b)
  | [], b => by cases b <;> simp [sameFields]
  | (m, a) :: rest, b => by
    cases b with
    | nil => simp [sameFields]
    | cons field others =>
      obtain ⟨n, b⟩ := field
      simp [sameFields, same_iff a b, sameFields_iff rest others, and_assoc]

end

instance : DecidableEq Value := fun a b => decidable_of_iff _ (same_iff a b)

end Recast.Value
