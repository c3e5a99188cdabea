import Recast.Double.Rounding
import Recast.Failure
import Recast.Value.Literal

/-!
Decoders: functions that turn a value into one of a certain kind or complain. Integers are accepted
where doubles are expected, and doubles where integers are if they are integral.
-/

namespace Recast

abbrev Decoder := Value → Outcome Value

namespace Decoder

def expected (what : String) (v : Value) : Failure :=
  .signal .type s!"Expected {what}, got {v.describe}"

def asString : Decoder
  | .string s => .ok (.string s)
  | v => .error (expected "string" v)

def asInt : Decoder
  | .int n => .ok (.int n)
  | .double d =>
    match d.toInt? with
    | some n => .ok (.int n)
    | none =>
      let shown := String.ofList (d.text Double.plain)
      .error (.signal .value s!"Expected integer, got non-integral number {shown}")
  | v => .error (expected "integer" v)

/-- An integer past the range of the finite doubles is not a complaint about the value but an
overflow. -/
def asFloat : Decoder
  | .double d => .ok (.double d)
  | .int n =>
    match Double.ofInt? n with
    | some d => .ok (.double d)
    | none => .error (.signal .overflow "int too large to convert to float")
  | v => .error (expected "number" v)

def asBool : Decoder
  | .bool b => .ok (.bool b)
  | v => .error (expected "boolean" v)

def asObject : Decoder
  | .object fields => .ok (.object fields)
  | v => .error (expected "object" v)

def asList : Decoder
  | .array _ items => .ok (.list items)
  | v => .error (expected "array" v)

/-- Decodes an array item by item. -/
def listOf (decode : Decoder) : Decoder
  | .array _ items => .list <$> items.mapM decode
  | v => .error (expected "array" v)

end Decoder

end Recast
