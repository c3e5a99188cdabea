import Recast.Command.Arguments

/-!
The commands and what they are given. Arguments that do not fit a command are a usage error, which
is told apart from no other. A request names its input files also where the rest does not fit, since
they are looked for first.
-/

namespace Recast.Command

/-- The types that a value can be extracted as. -/
inductive ValueType where
  | any
  | string
  | int
  | float
  | bool
  | list
deriving DecidableEq

def ValueType.named? : String → Option ValueType
  | "any" => some .any
  | "string" => some .string
  | "int" => some .int
  | "float" => some .float
  | "bool" => some .bool
  | "list" => some .list
  | _ => none

/-- Where a command that makes a document puts it, and whether its profile is reported. An empty
output name stands for the standard output. -/
structure Emission where
  output : Option String
  pretty : Bool
  profile : Bool

inductive Invocation where
  | help
  | version
  | get (file path : String) (pretty : Bool)
  | extract (file path : String) (type : ValueType)
  | transform (file rules : String) (emission : Emission)
  | translate (base override : String) (rules : Option String) (emission : Emission)
  | only (file : String) (fields : List String) (pretty : Bool)
  | validateRules (rules : String)

def helpFlag : Flag := { long := "--help" }

def prettyFlag : Flag := { long := "--pretty", short := some 'p' }

def rulesFlag : Flag := { long := "--rules", short := some 'r', takesValue := true }

def outputFlag : Flag := { long := "--output", short := some 'o', takesValue := true }

def profileFlag : Flag := { long := "--profile" }

def typeFlag : Flag := { long := "--type", short := some 't', takesValue := true }

def verboseFlag : Flag := { long := "--verbose", short := some 'v' }

def versionFlag : Flag := { long := "--version" }

/-- The options that a command knows, by its name. -/
def flagsOf : String → Option (List Flag)
  | "get" => some [helpFlag, prettyFlag]
  | "extract" => some [helpFlag, typeFlag]
  | "transform" => some [helpFlag, rulesFlag, outputFlag, prettyFlag, profileFlag]
  | "translate" => some [helpFlag, rulesFlag, outputFlag, prettyFlag, profileFlag]
  | "only" => some [helpFlag, prettyFlag]
  | "validate-rules" => some [helpFlag]
  | _ => none

def emissionOf (a : Arguments) : Emission :=
  { output := (a.value? "--output").filter fun name => !name.isEmpty
    pretty := a.has "--pretty"
    profile := a.has "--profile" }

/-- The name of the file that a command writes, if it writes one. -/
def Invocation.output? : Invocation → Option String
  | .transform _ _ emission => emission.output
  | .translate _ _ _ emission => emission.output
  | _ => none

/-- The type that an extraction asks for, if there is one of that name. -/
def typeOf? (a : Arguments) : Option ValueType :=
  ValueType.named? ((a.value? "--type").getD "any")

/-- A command with its arguments, if they fit it. -/
def Invocation.ofArguments? (name : String) (a : Arguments) : Option Invocation :=
  if a.has "--help" then some .help
  else
    match name, a.plain with
    | "get", [file, path] => some (.get file path (a.has "--pretty"))
    | "extract", [file, path] => do return .extract file path (← typeOf? a)
    | "transform", [file] => do
      let rules ← a.value? "--rules"
      return .transform file rules (emissionOf a)
    | "translate", [base, override] =>
      some (.translate base override (a.value? "--rules") (emissionOf a))
    | "only", file :: field :: fields => some (.only file (field :: fields) (a.has "--pretty"))
    | "validate-rules", [rules] => some (.validateRules rules)
    | _, _ => none

/-- How many of a command's plain arguments, from the first on, are the names of input files. -/
def inputCount (name : String) : Nat := if name = "translate" then 2 else 1

/-- The input files that a command is given, a rule file before the others, whether or not the rest
of the arguments fits. None are looked for where help is asked for or the type is unknown. -/
def inputsOf (name : String) (a : Arguments) : List String :=
  if a.has "--help" || (typeOf? a).isNone then []
  else (a.value? "--rules").toList ++ a.plain.take (inputCount name)

/-- What a command line asks for: the names of the files that the command reads, in the order in
which they are looked for, and the command itself if its arguments fit. -/
structure Request where
  inputs : List String := []
  invocation : Option Invocation := none

namespace Request

def ofArguments (name : String) (a : Arguments) : Request :=
  { inputs := inputsOf name a, invocation := Invocation.ofArguments? name a }

/-- What the arguments of the whole command line ask for; nothing if there is no such command or
option. -/
def read? (arguments : List String) : Option Request := do
  let whole ← readArguments [helpFlag, verboseFlag, versionFlag] false none arguments
  match whole.options.find? fun o => o.1 ≠ "--verbose" with
  | some (long, _) =>
    return { invocation := some (if long = "--help" then .help else .version) }
  | none =>
    match whole.plain with
    | [] => none
    | name :: rest => do
      let flags ← flagsOf name
      let own ← readArguments flags true none rest
      return ofArguments name own

/-- What a command line asks for: no file and no command if it cannot be read. -/
def read (arguments : List String) : Request := (read? arguments).getD {}

end Request

end Recast.Command
