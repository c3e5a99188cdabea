import Recast.Double.Shortest
import Recast.Failure
import Recast.Value.Basic

/-!
Values as messages spell them out. This is not JSON text: texts stand between the quotes of
`Text.quoted`, and truth values and null have names of their own. A message cannot be made of a
value that holds an integer of more than `Text.Numeral.limit` digits.
-/

namespace Recast

/-- NaN and infinity as messages name them. -/
def Double.plain : Double.Spelling := ⟨"nan", "inf"⟩

namespace Value

/-- Whether a value is no integer, or one of at most as many digits as are written. -/
def isShort : Value → Bool
  | .int n => Text.Numeral.isWritable n.natAbs
  | _ => true

mutual

/-- How a value is spelled out, whatever the length of the integers in it. -/
def spelling : Value → String
  | .absent => "ABSENT"
  | .null => "None"
  | .bool b => if b then "True" else "False"
  | .int n => String.ofList (Text.Numeral.writeInt n)
  | .double d => String.ofList (d.text Double.plain)
  | .string s => Text.quoted s
  | .array false items => "[" ++ ", ".intercalate (itemSpellings items) ++ "]"
  | .array true [v] => "(" ++ v.spelling ++ ",)"
  | .array true items => "(" ++ ", ".intercalate (itemSpellings items) ++ ")"
  | .object fields => "\x7b" ++ ", ".intercalate (fieldSpellings fields) ++ "\x7d"
  | .foreign _ text => "b" ++ Text.quoted text

def itemSpellings : List Value → List String
  | [] => []
  | v :: rest => v.spelling :: itemSpellings rest

def fieldSpellings : List (String × Value) → List String
  | [] => []
  | (name, v) :: rest => (Text.quoted name ++ ": " ++ v.spelling) :: fieldSpellings rest

end

/-- A value as a message spells it out, which no integer in it may be too long for. -/
def literal (v : Value) : Outcome String :=
  if v.all isShort then .ok v.spelling else .error Failure.unwritable

/-- A value inside a sentence: a text stands for itself, without quotes. -/
def plainText : Value → Outcome String
  | .string s => .ok s
  | v => v.literal

theorem literal_of_short {v : Value} (short : v.all isShort = true) :
    v.literal = .ok v.spelling := if_pos short

theorem literal_of_long {v : Value} (long : v.all isShort = false) :
    v.literal = .error Failure.unwritable := by
  rw [literal, long]
  rfl

end Value

end Recast
