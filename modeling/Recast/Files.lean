import Recast.Failure
import Recast.Json.Reader
import Recast.Rule.Loader
import Recast.Text.Utf8

/-!
Files as the library sees them: what stands under a name, and reading it as text or as a rule
document. A name is a row of parts between slashes, followed from the directory at hand or, where it
starts with a slash, from the root.
-/

namespace Recast

/-- What stands under a name: `misplaced` if the name leads through a file as if it were a
directory, `overlong` if it has a part that no directory can hold. -/
inductive FileEntry where
  | file (bytes : List UInt8)
  | directory
  | missing
  | misplaced
  | overlong
deriving DecidableEq

/-- What stands under each name. Names are given in normal form. -/
abbrev Files := String → FileEntry

namespace Files

/-! ## Names -/

/-- The parts of a name between slashes that lead somewhere. -/
def parts (name : String) : List String :=
  ((Path.splitOn '/' name.toList).map String.ofList).filter fun part => part ≠ "" && part ≠ "."

/-- The slashes that a name in normal form starts with. Exactly two are kept, more count as one. -/
def root (name : String) : String :=
  match name.toList with
  | '/' :: '/' :: '/' :: _ => "/"
  | '/' :: '/' :: _ => "//"
  | '/' :: _ => "/"
  | _ => ""

/-- Whether a name starts at the root of all directories. -/
def isAbsolute (name : String) : Bool := name.toList.head? = some '/'

/-- A name without empty parts and steps to the same place. -/
def normal (name : String) : String :=
  let whole := root name ++ "/".intercalate (parts name)
  if whole.isEmpty then "." else whole

/-- Whether a name, as it is written, can only be a directory's: its last part is empty or a step to
the same place. -/
def namesDirectory (name : String) : Bool :=
  match (Path.splitOn '/' name.toList).getLast? with
  | some part => part.isEmpty || part = ['.']
  | none => true

/-- The directory that holds what stands under a name. -/
def parent (name : String) : String :=
  normal (root name ++ "/".intercalate (parts name).dropLast)

/-- Whether a name can be given to a file system at all. -/
def isNameable (name : String) : Bool := !name.toList.contains '\x00'

/-- The longest part that a directory can hold, in bytes. -/
def partLimit : Nat := 255

/-- The longest name that can be followed, in bytes. -/
def nameLimit : Nat := 4095

/-! ## Following a name -/

/-- A place that a name leads to: in the directory at hand, in one of those above it, or below the
root. The parts are those from there on, the last one first. -/
inductive Spot where
  | inside (parts : List String)
  | above
  | absolute (parts : List String)
deriving DecidableEq

/-- The place that one part leads to. What else is held by the directories above is not known. -/
def Spot.step (part : String) : Spot → Option Spot
  | .inside (last :: parts) =>
    if part = ".." then some (.inside parts) else some (.inside (part :: last :: parts))
  | .inside [] => if part = ".." then some .above else some (.inside [part])
  | .above => if part = ".." then some .above else none
  | .absolute parts =>
    if part = ".." then some (.absolute parts.tail) else some (.absolute (part :: parts))

/-- What stands where the parts lead from a spot. -/
def follow (look : Spot → FileEntry) : Spot → List String → FileEntry
  | here, [] => look here
  | here, part :: rest =>
    match look here with
    | .directory =>
      if partLimit < part.utf8ByteSize then .overlong
      else
        match here.step part with
        | some next => follow look next rest
        | none => .missing
    | .file _ => .misplaced
    | other => other

/-- The spot that a name is followed from. -/
def Spot.start (name : String) : Spot := if isAbsolute name then .absolute [] else .inside []

/-- The directories that stand below every root. -/
def systemDirectories : List String :=
  ["bin", "boot", "dev", "etc", "home", "lib", "media", "mnt", "opt", "proc", "root", "run", "sbin",
   "srv", "sys", "tmp", "usr", "var"]

/-- What stands at a spot if the directory at hand holds the given files and no others. -/
def lookIn (files : List (List String × List UInt8)) : Spot → FileEntry
  | .inside parts =>
    let wanted := parts.reverse
    match files.find? (·.1 = wanted) with
    | some (_, bytes) => .file bytes
    | none =>
      if wanted.isEmpty || files.any (fun f => wanted.isPrefixOf f.1) then .directory else .missing
  | .above => .directory
  | .absolute [] => .directory
  | .absolute [part] => if systemDirectories.contains part then .directory else .missing
  | .absolute parts => if parts = ["null", "dev"] then .file [] else .missing

/-- The files of a directory, by their names from there on. -/
def ofList (files : List (String × List UInt8)) : Files := fun name =>
  if nameLimit < name.utf8ByteSize then .overlong
  else
    let held := files.map fun f => (parts f.1, f.2)
    follow (lookIn held) (Spot.start name) (parts name)

/-- The name, from the directory at hand on, of what a name leads to; none if that is elsewhere. -/
def insideName? (name : String) : Option String :=
  match (parts name).foldlM (fun spot part => Spot.step part spot) (Spot.start name) with
  | some (.inside parts) => some ("/".intercalate parts.reverse)
  | _ => none

/-! ## Reading and writing -/

/-- Why nothing can be done under a name that no file system takes. -/
def nullByte : Failure := .signal .value "embedded null byte"

/-- Why nothing can be read under a name. -/
def missingFile (name : String) : Failure :=
  .signal .missingFile ("[Errno 2] No such file or directory: " ++ Text.quoted name)

def isDirectory (name : String) : Failure :=
  .signal .directory ("[Errno 21] Is a directory: " ++ Text.quoted name)

def notDirectory (name : String) : Failure :=
  .signal .notDirectory ("[Errno 20] Not a directory: " ++ Text.quoted name)

def nameTooLong (name : String) : Failure :=
  .signal .nameTooLong ("[Errno 36] File name too long: " ++ Text.quoted name)

/-- The bytes under a name. -/
def bytes (files : Files) (name : String) : Outcome (List UInt8) :=
  if !isNameable name then .error nullByte
  else
    match files name with
    | .file bytes => .ok bytes
    | .directory => .error (isDirectory name)
    | .missing => .error (missingFile name)
    | .misplaced => .error (notDirectory name)
    | .overlong => .error (nameTooLong name)

/-- The text of a file's bytes. -/
def decode (bytes : List UInt8) : Outcome String :=
  (Text.Utf8.decodeFile bytes).mapError fun f => .signal .encoding f.message

/-- Why a text file cannot be written under a name, if it cannot. -/
def writeRefusal? (files : Files) (name : String) : Option Failure :=
  if !isNameable name then some nullByte
  else
    match files name, files (parent name) with
    | .directory, _ => some (isDirectory name)
    | .file _, _ => none
    | .misplaced, _ => some (notDirectory name)
    | .overlong, _ => some (nameTooLong name)
    | .missing, .directory => none
    | .missing, _ => some (missingFile name)

/-- The failure to read a rule file. What the file system refuses is a fault of the configuration.
-/
def unreadable (name : String) : Failure → Failure
  | .signal s message =>
    if s.isSystem then .ofCause (.unreadableFile message) name else .signal s message
  | failure => failure

end Files

/-- The configuration in a rule file. A file that cannot be opened and a text that is not JSON are
faults of the configuration; a name that no file system takes, bytes that are no text and overlong
numerals are signals. -/
def Config.loadFile (files : Files) (name : String) : Outcome Config := do
  let name := Files.normal name
  let bytes ← (files.bytes name).mapError (Files.unreadable name)
  let text ← Files.decode bytes
  match Json.read text with
  | .ok document => Config.load document
  | .error (.syntaxFault fault place) =>
    throw (.ofCause (.fileNotJson fault.message place.line place.column) name)
  | .error (.numeralTooLong digits) => throw (.numeralTooLong digits)

end Recast
