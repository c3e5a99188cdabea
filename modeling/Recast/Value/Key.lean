import Recast.Value.Equality

/-!
Identity keys: a normal form of values in which strict equality is equality. Integral doubles become
integers, and fields are sorted by name. Unlike the values, keys are decidably equal as they stand,
NaN included, so they can be looked up. Main statement: keys have decidable equality, and it is
equality of the trees (`beq_iff`).
-/

namespace Recast

/-- The normal form of a value. -/
inductive Key where
  | absent
  | null
  | bool (b : Bool)
  | int (n : Int)
  | double (d : Double)
  | string (s : String)
  | array (items : List Key)
  | object (fields : List (String × Key))

namespace Key

mutual

def beq : Key → Key → Bool
  | .absent, .absent => true
  | .null, .null => true
  | .bool a, .bool b => a == b
  | .int a, .int b => a == b
  | .double a, .double b => a == b
  | .string a, .string b => a == b
  | .array a, .array b => beqItems a b
  | .object a, .object b => beqFields a b
  | _, _ => false

def beqItems : List Key → List Key → Bool
  | [], [] => true
  | a :: rest, b :: others => a.beq b && beqItems rest others
  | _, _ => false

def beqFields : List (String × Key) → List (String × Key) → Bool
  | [], [] => true
  | (m, a) :: rest, (n, b) :: others => m == n && a.beq b && beqFields rest others
  | _, _ => false

end

mutual

theorem beq_iff : (a b : Key) → (a.beq b = true ↔ a = b)
  | .absent, b => by cases b <;> simp [beq]
  | .null, b => by cases b <;> simp [beq]
  | .bool _, b => by cases b <;> simp [beq]
  | .int _, b => by cases b <;> simp [beq]
  | .double _, b => by cases b <;> simp [beq]
  | .string _, b => by cases b <;> simp [beq]
  | .array items, b => by
    cases b with
    | array others => simp [beq, beqItems_iff items others]
    | _ => simp [beq]
  | .object fields, b => by
    cases b with
    | object others => simp [beq, beqFields_iff fields others]
    | _ => simp [beq]

theorem beqItems_iff : (a b : List Key) → (beqItems a b = true ↔ a = b)
  | [], b => by cases b <;> simp [beqItems]
  | a :: rest, b => by
    cases b with
    | nil => simp [beqItems]
    | cons b others => simp [beqItems, beq_iff a b, beqItems_iff rest others]

theorem beqFields_iff : (a b : List (String × Key)) → (beqFields a b = true ↔ a = b)
  | [], b => by cases b <;> simp [beqFields]
  | (m, a) :: rest, b => by
    cases b with
    | nil => simp [beqFields]
    | cons field others =>
      obtain ⟨n, b⟩ := field
      simp [beqFields, beq_iff a b, beqFields_iff rest others, and_assoc]

end

instance : DecidableEq Key := fun a b => decidable_of_iff _ (beq_iff a b)

/-- Fields sorted by name with one more in its place. -/
def insert (name : String) (key : Key) : List (String × Key) → List (String × Key)
  | [] => [(name, key)]
  | (other, old) :: rest =>
    if name < other then (name, key) :: (other, old) :: rest
    else (other, old) :: insert name key rest

end Key

namespace Value

mutual

/-- The identity key of a value. A foreign value, at any depth, has none. -/
def key : Value → Except Fault Key
  | .absent => .ok .absent
  | .null => .ok .null
  | .bool b => .ok (.bool b)
  | .int n => .ok (.int n)
  | .double d =>
    match d.toInt? with
    | some n => .ok (.int n)
    | none => .ok (.double d)
  | .string s => .ok (.string s)
  | .array _ items => .array <$> keyItems items
  | .object fields => .object <$> keyFields fields
  | .foreign typeName _ => .error { cause := .unsupportedType typeName }

def keyItems : List Value → Except Fault (List Key)
  | [] => .ok []
  | v :: rest => do
    let k ← v.key
    let ks ← keyItems rest
    return k :: ks

def keyFields : List (String × Value) → Except Fault (List (String × Key))
  | [] => .ok []
  | (name, v) :: rest => do
    let k ← v.key
    let ks ← keyFields rest
    return Key.insert name k ks

end

end Value

end Recast
