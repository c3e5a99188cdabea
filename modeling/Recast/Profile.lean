import Recast.Failure
import Recast.Value.Basic

/-!
Profiling sessions. A profiler records one operation at a time: what it is called, how many rules it
runs and how large its input and output are. Starting again drops the operation under way. An
operation without a name counts as none, so it cannot be stopped.

Durations and memory are measured outside. Left out are the text of the log lines that tell a
finished operation and the JSON text of the exported records. That neither can be made of an integer
of more than `Text.Numeral.limit` digits is not: stopping and exporting fail on one. Sizes are in
bytes, and no data has one of so many digits, but nothing keeps a caller from giving it.
-/

namespace Recast

/-- The record of a finished operation. -/
structure Measurement where
  operation : String
  inputSize : Int
  outputSize : Int
  rules : Int
deriving DecidableEq

def Measurement.toFields (m : Measurement) : Fields :=
  [("operation_name", .string m.operation), ("input_size", .int m.inputSize),
    ("output_size", .int m.outputSize), ("rules_applied", .int m.rules)]

/-- Whether the figures of a record can be written down. -/
def Measurement.isTellable (m : Measurement) : Bool :=
  [m.inputSize, m.outputSize, m.rules].all fun n => Text.Numeral.isWritable n.natAbs

/-- A profiler: the operation under way, if any, the sizes last noted, and the finished operations.
-/
structure Profiler where
  current : Option String := none
  inputSize : Int := 0
  outputSize : Int := 0
  rules : Int := 0
  history : List Measurement := []
deriving DecidableEq

namespace Profiler

def start (p : Profiler) (operation : String) (inputSize rules : Int) : Profiler :=
  { p with current := some operation, inputSize, outputSize := 0, rules }

/-- Notes the size of an output, also while no operation is under way. -/
def record (p : Profiler) (outputSize : Int) : Profiler := { p with outputSize }

/-- The name of the operation under way. -/
def active? (p : Profiler) : Option String := p.current.filter fun name => !name.isEmpty

def inactive : Failure := .signal .value "No active profiling session"

/-- Finishes the operation under way. Its record is kept before its figures are told, and the
operation stays under way if they cannot be. -/
def stop (p : Profiler) : Profiler × Outcome Measurement :=
  match p.active? with
  | none => (p, .error inactive)
  | some operation =>
    let m : Measurement := ⟨operation, p.inputSize, p.outputSize, p.rules⟩
    let kept := { p with history := p.history ++ [m] }
    if m.isTellable then ({ kept with current := none }, .ok m)
    else (kept, .error Failure.unwritable)

/-- Profiles what a body does to the profiler that it is given. The operation is finished however
the body ends, and that this is impossible weighs more than how the body failed. -/
def enclose (p : Profiler) (operation : String) (inputSize rules : Int)
    (body : Profiler → Profiler × Outcome Unit) : Profiler × Outcome Unit :=
  let (after, result) := body (p.start operation inputSize rules)
  match after.stop with
  | (stopped, .ok _) => (stopped, result)
  | (left, .error failure) => (left, .error failure)

/-- Profiles an operation whose body leaves an output size or fails. -/
def profile (p : Profiler) (operation : String) (inputSize rules : Int) (body : Outcome Int) :
    Profiler × Outcome Unit :=
  p.enclose operation inputSize rules fun started =>
    match body with
    | .ok n => (started.record n, .ok ())
    | .error failure => (started, .error failure)

/-- The names of the finished operations, in order. -/
def operations (p : Profiler) : List String := p.history.map (·.operation)

/-- How many operations were finished and, if there are any, which. -/
def summary (p : Profiler) : Fields :=
  ("total_operations", .int p.history.length) ::
    if p.history.isEmpty then [] else [("operations", .list (p.operations.map .string))]

/-- The records of the finished operations, in order, as they are exported. -/
def records (p : Profiler) : Outcome Value :=
  if p.history.all Measurement.isTellable then .ok (.list (p.history.map (.object ·.toFields)))
  else .error Failure.unwritable

end Profiler

end Recast
