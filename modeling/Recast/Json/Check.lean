import Recast.Failure
import Recast.Json.Reader
import Recast.Text.Blank

/-!
Checking an input before it is read, and reading it with the same verdict. An input is valid if it
is a text that is not blank and holds JSON; a text with very deep values is valid with a warning. A
numeral with too many digits is beyond both: check and parse fail on it alike.
-/

namespace Recast.Json

/-- Values nested deeper than this are worth a warning. -/
def deepNesting : Nat := 20

def nestingWarnings (v : Value) : List String :=
  if deepNesting < v.depth then
    [s!"Deep nesting detected (depth: {v.depth}). This may impact performance."]
  else []

/-- What there is to say about an input that should be JSON text. -/
def check : Value → Outcome Report
  | .string text =>
    if Text.isBlankText text then .ok (.ofIssue .syntaxError "JSON string is empty" "input")
    else
      match read text with
      | .ok value => .ok { warnings := nestingWarnings value }
      | .error (.syntaxFault fault place) =>
        .ok (.ofIssue .syntaxError s!"Invalid JSON syntax: {fault.message}"
          s!"line {place.line}, column {place.column}")
      | .error (.numeralTooLong digits) => .error (.numeralTooLong digits)
  | other =>
    .ok (.ofIssue .syntaxError s!"Expected JSON text, got {other.typeName}" "input")

/-- The failure of reading an input that was found invalid. -/
def invalidInput (report : Report) : Failure :=
  let messages := "; ".intercalate (report.issues.map (·.message))
  .signal .value s!"Invalid JSON input: {messages}"

/-- The value of an input that should be JSON text. -/
def parse (input : Value) : Outcome Value := do
  let report ← check input
  match report.issues, input with
  | [], .string text => (read text).mapError ReadFault.failure
  | _, _ => throw (invalidInput report)

end Recast.Json
