import Recast.Failure
import Recast.Text.Blank
import Recast.Text.Case
import Recast.Value.Literal

/-!
Mappers: named changes of a value that a copy rule makes before it writes. The rules of the library
know four of them by name, which change texts and leave other values as they are; a caller can
supply more.
-/

namespace Recast

structure Mapper where
  name : String
  map : Value → Outcome Value

namespace Mapper

/-- A mapper that changes texts only. -/
def ofText (name : String) (change : String → String) : Mapper :=
  { name
    map := fun
      | .string s => .ok (.string (change s))
      | v => .ok v }

/-- A text with `lead` in front. With `unlessPresent`, one that starts with it already stays. -/
def prepend (lead : String) (unlessPresent : Bool) (s : String) : String :=
  if unlessPresent && lead.toList.isPrefixOf s.toList then s else lead ++ s

/-- Why options do not fit the prepending mapper, if they do not: the first option that it does not
have, else the lead that is missing, else a lead that is no text. -/
def prependRefusal? (options : Fields) : Option Failure :=
  let signature := "PrefixMapper.__init__()"
  match options.find? fun o => o.1 ≠ "prefix" && o.1 ≠ "skip_if_present" with
  | some (name, _) =>
    if name = "self" then
      some (.signal .type (signature ++ " got multiple values for argument 'self'"))
    else some (.signal .type s!"{signature} got an unexpected keyword argument '{name}'")
  | none =>
    match Fields.get "prefix" options with
    | .absent =>
      some (.signal .type (signature ++ " missing 1 required positional argument: 'prefix'"))
    | .string _ => none
    | _ => some (.signal .value "prefix must be a string")

/-- The mapper that puts a text in front, built from its options. -/
def prepending (options : Fields) : Outcome Mapper :=
  match prependRefusal? options, Fields.get "prefix" options with
  | none, .string lead =>
    .ok (ofText "prefix" (prepend lead (Fields.get "skip_if_present" options).truthy))
  | some failure, _ => .error failure
  | none, _ => .error (.signal .value "prefix must be a string")

/-- A mapper that has no options; `typeName` is how it is called when it is given some. -/
def plain (typeName name : String) (change : String → String) (options : Fields) : Outcome Mapper :=
  if options.isEmpty then .ok (ofText name change)
  else .error (.signal .type s!"{typeName}() takes no arguments")

/-- The mappers that have a name of their own, by name. -/
def builtIn : List (String × (Fields → Outcome Mapper)) :=
  [("lowercase", plain "LowercaseMapper" "lowercase" Text.Case.lower),
   ("prefix", prepending),
   ("strip", plain "StripMapper" "strip" Text.trim),
   ("uppercase", plain "UppercaseMapper" "uppercase" Text.Case.upper)]

def named? (name : String) : Option (Fields → Outcome Mapper) := builtIn.lookup name

/-- Why there is no mapper of a name. -/
def unknown (name : String) : Cause := .unknownName "mapper" name (builtIn.map (·.1))

/-- The mapper of a name, built with options. -/
def named (name : String) (options : Fields) : Outcome Mapper :=
  match named? name with
  | some build => build options
  | none => .error (.signal .key (unknown name).message)

end Mapper

end Recast
