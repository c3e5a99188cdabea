import Recast.Advice
import Recast.Command.Invocation
import Recast.Document
import Recast.Files
import Recast.Profile
import Recast.Rule.Check
import Recast.Text.Stream

/-!
What the commands do, as a function of the files there are: what they print, which file they write
and how they end. A fault is shown with advice; any other failure ends the command as it is.
-/

namespace Recast.Command

/-- How a command ended. The profile, if it is reported, is left to be printed with its figures,
below everything else. -/
structure Result where
  exitCode : Nat := 0
  stdout : String := ""
  stderr : String := ""
  written : Option (String × String) := none
  profile : Option Measurement := none
  escaped : Option Failure := none

namespace Result

def usage : Result := { exitCode := 2 }

def printed (text : String) : Result := { stdout := text ++ "\n" }

/-- Ends with a one-line complaint. -/
def complaint (message : String) : Result := { exitCode := 1, stderr := s!"Error: {message}\n" }

/-- Ends with a failure. -/
def failed : Failure → Result
  | .fault f =>
    let action := f.advice.action
    { exitCode := 1, stderr := s!"❌ {f.text}\n   • {action}\n" }
  | failure => { exitCode := 1, escaped := some failure }

/-- A result whose output is as the streams carry it. -/
def streamed (r : Result) : Result :=
  { r with stdout := Text.Stream.plain r.stdout, stderr := Text.Stream.plain r.stderr }

/-- A text to print, or the failure to make it. -/
def ofText (result : Outcome String) : Result :=
  match result with
  | .ok text => printed text
  | .error failure => failed failure

end Result

def versionText : String := "main, version 1.0.0"

def helpText : String :=
  "Usage: main [OPTIONS] COMMAND [ARGS]...\n\n"
    ++ "  Query, extract and rewrite JSON documents.\n\n"
    ++ "Commands:\n"
    ++ "  extract         Extract a typed value; fails if missing or of the wrong type.\n"
    ++ "  get             Print the value found at a path.\n"
    ++ "  only            Keep only the named top-level fields.\n"
    ++ "  transform       Build a new document using a rule document.\n"
    ++ "  translate       Merge one document into another.\n"
    ++ "  validate-rules  Check a rule document and report every broken rule."

/-- The document in a file. Whatever is wrong with its content is a complaint that names the file.
-/
def readDocument (files : Files) (name : String) : Except Result Document :=
  let name := Files.normal name
  let read : Outcome Document := do
    let bytes ← files.bytes name
    let text ← Files.decode bytes
    Document.parse (.string text)
  match read with
  | .ok d => .ok d
  | .error (.signal .value message) => .error (.complaint s!"{name}: {message}")
  | .error (.signal .encoding message) => .error (.complaint s!"{name}: {message}")
  | .error failure => .error (.failed failure)

def layoutOf (pretty : Bool) : Json.Layout := if pretty then .pretty else .compact

def printDocument (d : Document) (pretty : Bool) : Outcome String :=
  (d.print (layoutOf pretty)).mapError .fault

def get (d : Document) (path : String) (pretty : Bool) : Result :=
  match Path.read path with
  | .error failure => .failed failure
  | .ok p =>
    if d.exists? p then
      .ofText do printDocument (← d.navigate p) pretty
    else { exitCode := 1, stderr := s!"❌ Path '{path}' does not exist\n" }

/-- The value at a path, extracted as a type. -/
def extractAs (d : Document) (path : Path) : ValueType → Outcome Value
  | .any => extract d.value path none
  | .string => extract d.value path (some Decoder.asString)
  | .int => extract d.value path (some Decoder.asInt)
  | .float => extract d.value path (some Decoder.asFloat)
  | .bool => extract d.value path (some Decoder.asBool)
  | .list => extractList d.value path none

def extractText (d : Document) (path : String) (type : ValueType) : Outcome String := do
  let value ← extractAs d (← Path.read path) type
  (Json.print .compact value).mapError .fault

def sizeOf (files : Files) (name : String) : Int :=
  match files (Files.normal name) with
  | .file bytes => bytes.length
  | _ => 0

/-- The rules in a configuration, as a profile counts them. -/
def ruleCount : Option Config → Int
  | some config => config.toList.length
  | none => 0

/-- Makes a document in a profiled operation, which also notes the size of the document's text. -/
def profiled (operation : String) (inputSize : Int) (config? : Option Config)
    (make : Outcome Document) : Outcome (Document × Profiler) := do
  let body : Outcome Int := do
    let text ← printDocument (← make) false
    return text.utf8ByteSize
  let (profiler, ended) := ({} : Profiler).profile operation inputSize (ruleCount config?) body
  ended
  return (← make, profiler)

/-- Prints a document or writes it to a file. -/
def emit (files : Files) (emission : Emission) (made : Document × Profiler) : Result :=
  let report := if emission.profile then made.2.history.head? else none
  match printDocument made.1 emission.pretty, emission.output with
  | .error failure, _ => .failed failure
  | .ok text, none => { Result.printed text with profile := report }
  | .ok text, some name =>
    match files.writeRefusal? (Files.normal name) with
    | some failure => .failed failure
    | none =>
      { stderr := s!"✅ Wrote {name}\n"
        written := some (Files.normal name, text ++ "\n")
        profile := report }

def transformFile (files : Files) (file rules : String) (emission : Emission) :
    Except Result Result := do
  let d ← readDocument files file
  let made : Outcome (Document × Profiler) := do
    let config ← Config.loadFile files rules
    profiled "transform" (sizeOf files file) (some config) (d.transform config)
  match made with
  | .ok made => return emit files emission made
  | .error failure => throw (.failed failure)

def translateFiles (files : Files) (base override : String) (rules : Option String)
    (emission : Emission) : Except Result Result := do
  let d ← readDocument files base
  let o ← readDocument files override
  let made : Outcome (Document × Profiler) := do
    let config? ← rules.mapM (Config.loadFile files)
    let size := sizeOf files base + sizeOf files override
    profiled "translate" size config? (d.translate o.value config?)
  match made with
  | .ok made => return emit files emission made
  | .error failure => throw (.failed failure)

/-- What a report on a rule file says. -/
def showReport (name : String) (report : Report) : Result :=
  let warnings := String.join (report.warnings.map fun w => s!"⚠️  {w}\n")
  if report.isValid then { stdout := s!"✅ {name} is valid\n", stderr := warnings }
  else
    let issues := report.issues.map fun i =>
      let location := i.location.getD "None"
      s!"   • {location}: {i.message}\n"
    let count := report.issues.length
    { exitCode := 1
      stderr := warnings ++ s!"❌ {name} has {count} problem(s):\n" ++ String.join issues }

def checkRules (files : Files) (name : String) : Result :=
  let name := Files.normal name
  let read : Outcome String := do Files.decode (← files.bytes name)
  match read with
  | .error failure => .failed failure
  | .ok text =>
    match Json.read text with
    | .ok document =>
      match Rule.check document with
      | .ok report => showReport name report
      | .error failure => .failed failure
    | .error (.syntaxFault fault place) =>
      .complaint s!"{name}: invalid JSON: {fault.message} at line {place.line}"
    | .error (.numeralTooLong digits) => .failed (.numeralTooLong digits)

/-- Whether a name leads to a file that can be read. -/
def isFile (files : Files) (name : String) : Bool :=
  match files (Files.normal name) with
  | .file _ => !Files.namesDirectory name
  | _ => false

/-- What a command does once its input files are known to exist. -/
def perform (files : Files) : Invocation → Except Result Result
  | .help => .ok (.printed helpText)
  | .version => .ok (.printed versionText)
  | .get file path pretty => do return get (← readDocument files file) path pretty
  | .extract file path type => do
    return .ofText (extractText (← readDocument files file) path type)
  | .transform file rules emission => transformFile files file rules emission
  | .translate base override rules emission => translateFiles files base override rules emission
  | .only file fields pretty => do
    let d ← readDocument files file
    return .ofText do
      let kept ← d.only (.list (fields.map .string))
      printDocument kept pretty
  | .validateRules rules => .ok (checkRules files rules)

/-- How a command ends that cannot have one of its input files. -/
def inputRefusal? (files : Files) (name : String) : Option Result :=
  if !Files.isNameable name then some (.failed Files.nullByte)
  else if isFile files name then none
  else some .usage

/-- Runs what a command line asks for. Input files that do not exist are a usage error. -/
def run (files : Files) (request : Request) : Result :=
  let result :=
    match request.inputs.findSome? (inputRefusal? files), request.invocation with
    | some refusal, _ => refusal
    | none, none => .usage
    | none, some invocation =>
      match perform files invocation with
      | .ok result => result
      | .error result => result
  result.streamed

/-- The line that reports a profile with its figures. -/
def profileLine (m : Measurement) (duration memory : String) : String :=
  s!"📊 {m.operation}: {duration}, {m.rules} rules, peak memory {memory}\n"

end Recast.Command
