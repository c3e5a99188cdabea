import Recast.Double.Shortest
import Recast.Failure
import Recast.Value.Basic

/-!
Writing values as JSON text, on one line or indented. Characters from the space on stand for
themselves, except the quote and the backslash. Absent and foreign values have no text, nor do
integers of more digits than are read back: the first such value met is the fault.
-/

namespace Recast

/-- NaN and infinity as JSON text names them. -/
def Double.json : Double.Spelling := ⟨"NaN", "Infinity"⟩

namespace Json

/-- One line, or a line for each member, two spaces in from its container. -/
inductive Layout where
  | compact
  | pretty
deriving DecidableEq

/-- What stands between a bracket and the members at `level`. -/
def Layout.newline : Layout → Nat → List Char
  | .compact, _ => []
  | .pretty, level => '\n' :: List.replicate (2 * level) ' '

/-- What stands between two members at `level`. -/
def Layout.comma : Layout → Nat → List Char
  | .compact, _ => [',', ' ']
  | .pretty, level => ',' :: '\n' :: List.replicate (2 * level) ' '

/-- How a text's character is written. -/
def escape (c : Char) : List Char :=
  if c = '"' then ['\\', '"']
  else if c = '\\' then ['\\', '\\']
  else if c = '\n' then ['\\', 'n']
  else if c = '\r' then ['\\', 'r']
  else if c = '\t' then ['\\', 't']
  else if c = '\x0c' then ['\\', 'f']
  else if c = '\x08' then ['\\', 'b']
  else if c.toNat < 0x20 then '\\' :: 'u' :: Text.Numeral.hex 4 c.toNat
  else [c]

def writeText (s : String) : List Char := '"' :: s.toList.flatMap escape ++ ['"']

mutual

/-- The text of a value whose container is at `level`. -/
def write (layout : Layout) (level : Nat) : Value → Except Cause (List Char)
  | .absent => .error .absentText
  | .null => .ok "null".toList
  | .bool b => .ok (if b then "true".toList else "false".toList)
  | .int n =>
    if Text.Numeral.isWritable n.natAbs then .ok (Text.Numeral.writeInt n)
    else .error .numeralTooLong
  | .double d => .ok (d.text Double.json)
  | .string s => .ok (writeText s)
  | .array _ [] => .ok ['[', ']']
  | .array _ (v :: rest) => do
    let items ← writeItems layout (level + 1) (v :: rest)
    return '[' :: layout.newline (level + 1) ++ items ++ layout.newline level ++ [']']
  | .object [] => .ok ['\x7b', '\x7d']
  | .object (field :: rest) => do
    let fields ← writeFields layout (level + 1) (field :: rest)
    return '\x7b' :: layout.newline (level + 1) ++ fields ++ layout.newline level ++ ['\x7d']
  | .foreign typeName _ => .error (.untextualType typeName)

def writeItems (layout : Layout) (level : Nat) : List Value → Except Cause (List Char)
  | [] => .ok []
  | [v] => write layout level v
  | v :: rest => do
    let first ← write layout level v
    let others ← writeItems layout level rest
    return first ++ layout.comma level ++ others

def writeFields (layout : Layout) (level : Nat) : List (String × Value) → Except Cause (List Char)
  | [] => .ok []
  | [(name, v)] => do
    let value ← write layout level v
    return writeText name ++ ':' :: ' ' :: value
  | (name, v) :: rest => do
    let value ← write layout level v
    let others ← writeFields layout level rest
    return writeText name ++ ':' :: ' ' :: value ++ layout.comma level ++ others

end

/-- The JSON text of a value. -/
def print (layout : Layout) (v : Value) : Except Fault String :=
  match write layout 0 v with
  | .ok text => .ok (String.ofList text)
  | .error cause => .error { cause }

end Json

end Recast
