import Recast.Command.Run

/-!
The command line: reads the files that a command names, runs it, prints what it says and writes what
it makes.
-/

namespace Recast.Command

/-- What stands under a name on disk. What can neither be read nor is missing is taken to be a
directory. -/
def lookUp (name : String) : IO FileEntry := do
  try
    let bytes ← IO.FS.readBinFile name
    return .file bytes.toList
  catch
    | .noFileOrDirectory .. => return .missing
    | _ => return .directory

/-- The entries under the names that a command line mentions. -/
def gather (request : Request) : IO Files := do
  let outputs := (request.invocation.bind Invocation.output?).toList.map Files.normal
  let names := request.inputs.map Files.normal ++ outputs ++ outputs.map Files.parent
  let entries ← names.mapM fun name => do return (name, ← lookUp name)
  return fun name => (entries.lookup name).getD .missing

/-- Prints a result and carries out its write. -/
def deliver (result : Result) (milliseconds : Nat) : IO UInt32 := do
  let out ← IO.getStdout
  let err ← IO.getStderr
  if let some (name, text) := result.written then
    IO.FS.writeFile name text
  out.putStr result.stdout
  err.putStr result.stderr
  if let some m := result.profile then
    err.putStr (profileLine m s!"{milliseconds}ms" "unknown")
  if let some failure := result.escaped then
    err.putStrLn failure.text
  if result.exitCode = 2 then err.putStrLn helpText
  return UInt32.ofNat result.exitCode

end Recast.Command

def main (arguments : List String) : IO UInt32 := do
  let start ← IO.monoMsNow
  let request := Recast.Command.Request.read arguments
  let files ← Recast.Command.gather request
  let result := Recast.Command.run files request
  let stop ← IO.monoMsNow
  Recast.Command.deliver result (stop - start)
