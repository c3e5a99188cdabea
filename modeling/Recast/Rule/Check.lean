import Recast.Rule.Loader

/-!
Checking a rule document: one issue for each rule that cannot be built, and warnings where a
document is valid but may not do what was meant. The check itself fails on a rule whose refusal no
message can spell out.
-/

namespace Recast

namespace Rule

/-- The issue of a rule that cannot be built, if it cannot. Only a fault of the configuration is an
issue. -/
def issue? (v : Value) (location : String) : Outcome (Option Issue) :=
  match load v location with
  | .ok _ => .ok none
  | .error (.fault f) =>
    if f.kind = .config then .ok (some ⟨.config, f.message, f.path⟩) else .error (.fault f)
  | .error failure => .error failure

def issues : Nat → List Value → Outcome (List Issue)
  | _, [] => .ok []
  | position, v :: rest => do
    let first ← issue? v s!"rules[{position}]"
    let others ← issues (position + 1) rest
    return first.toList ++ others

/-- The values in a rule's object that name the places it writes to. -/
def destinations : Value → List Value
  | .object fields =>
    match memberOf "type" fields with
    | .string "copy_field" =>
      let dest := memberOf "to" fields
      [if dest.truthy then dest else memberOf "from" fields]
    | .string "copy_fields" =>
      match memberOf "fields" fields with
      | .array false items => items
      | _ => []
    | .string "copy" => [memberOf "path" fields]
    | .string "copy_array_of_objects" => [memberOf "path" fields]
    | _ => []
  | _ => []

/-- The texts that occur more than once, each once, in the order of their second occurrence; `seen`
holds those before. -/
def repeated (seen found : List String) : List String → List String
  | [] => found
  | text :: rest =>
    let found := if seen.contains text && !found.contains text then found ++ [text] else found
    repeated (text :: seen) found rest

/-- The destinations that are named more than once in a list of rules. -/
def repeatedDestinations (rules : List Value) : List String :=
  repeated [] [] <| (rules.flatMap destinations).filterMap fun
    | .string text => some text
    | _ => none

/-- The rules of a document as they are written: a list, or the member `rules` of an object. -/
def unwrap : Value → Value
  | .object fields =>
    if Fields.has "rules" fields then Fields.get "rules" fields else .object fields
  | v => v

/-- What there is to say about a rule document. -/
def check (document : Value) : Outcome Report :=
  match unwrap document with
  | .array false rules => do
    let found ← issues 0 rules
    let blank :=
      if rules.isEmpty then
        ["Rule document is empty; transforms will produce an empty object."]
      else []
    let twice := (repeatedDestinations rules).map fun dest =>
      s!"Destination '{dest}' is written by more than one rule; the last one wins."
    return { issues := found, warnings := blank ++ twice }
  | other => .ok (.ofIssue .config (Cause.rulesExpected other.typeName).message "rules")

end Rule

end Recast
