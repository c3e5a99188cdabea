import Recast.Path.Reader

/-!
Reading command-line arguments. An argument that starts with a dash, and is not a dash alone, gives
options: a long one, or a row of short ones. An option that takes a value takes what follows it in
the same argument, else the next argument whatever that looks like. After `--` everything is a plain
argument.
-/

namespace Recast.Command

/-- An option by its long name and, if it has one, its short name. -/
structure Flag where
  long : String
  short : Option Char := none
  takesValue : Bool := false

/-- Arguments told apart: options in order, each with its value, and plain arguments. -/
structure Arguments where
  options : List (String × String) := []
  plain : List String := []

namespace Arguments

def has (a : Arguments) (long : String) : Bool := a.options.any (·.1 = long)

/-- The value of an option; the last one given counts. -/
def value? (a : Arguments) (long : String) : Option String := a.options.reverse.lookup long

def withOption (a : Arguments) (long value : String) : Arguments :=
  { a with options := (long, value) :: a.options }

def withPlain (a : Arguments) (more : List String) : Arguments :=
  { a with plain := more ++ a.plain }

end Arguments

/-- What one argument gives: options that are complete, and an option that waits for its value. -/
structure Given where
  options : List (String × String) := []
  waiting : Option String := none

/-- The options in a row of short names. -/
def readShorts (flags : List Flag) : List Char → Option Given
  | [] => some {}
  | c :: rest => do
    let flag ← flags.find? (·.short = some c)
    if flag.takesValue then
      if rest.isEmpty then return { waiting := some flag.long }
      else return { options := [(flag.long, String.ofList rest)] }
    else do
      let given ← readShorts flags rest
      return { given with options := (flag.long, "") :: given.options }

/-- The options in an argument that starts with a dash. -/
def readOptions (flags : List Flag) (argument : String) : Option Given :=
  let cs := argument.toList
  let name := String.ofList (cs.takeWhile (· ≠ '='))
  let attached := cs.dropWhile (· ≠ '=')
  match flags.find? (·.long = name) with
  | some flag =>
    match flag.takesValue, attached with
    | true, [] => some { waiting := some flag.long }
    | true, _ :: value => some { options := [(flag.long, String.ofList value)] }
    | false, [] => some { options := [(flag.long, "")] }
    | false, _ => none
  | none => if "--".toList.isPrefixOf cs then none else readShorts flags (cs.drop 1)

def isOption (argument : String) : Bool :=
  argument.toList.head? = some '-' && argument ≠ "-"

/-- Tells arguments apart, the first being the value of the option that waits for one. Options may
stand between plain arguments only if these are `mixed`; otherwise the first plain argument ends
them. -/
def readArguments (flags : List Flag) (mixed : Bool) :
    Option String → List String → Option Arguments
  | none, [] => some {}
  | some _, [] => none
  | some long, value :: rest => do
    let others ← readArguments flags mixed none rest
    return others.withOption long value
  | none, argument :: rest =>
    if argument = "--" then some { plain := rest }
    else if isOption argument then do
      let given ← readOptions flags argument
      let others ← readArguments flags mixed given.waiting rest
      return { others with options := given.options ++ others.options }
    else if mixed then do
      let others ← readArguments flags mixed none rest
      return others.withPlain [argument]
    else some { plain := argument :: rest }

end Recast.Command
