import Recast.Path.Basic
import Recast.Value.Literal

/-!
Reading path notation. Segments are separated by points. A segment is a name, one or more indexes in
brackets, or a name followed by indexes; an index is a run of digits. The empty text is the root
path. A fault names the whole text as its path.
-/

namespace Recast.Path

/-- The pieces of a text between the separators; there is always at least one. -/
def splitOn (separator : Char) : List Char → List (List Char)
  | [] => [[]]
  | c :: rest =>
    match splitOn separator rest with
    | piece :: pieces => if c = separator then [] :: piece :: pieces else (c :: piece) :: pieces
    | [] => [[c]]

/-- Whether a token is a run of digits. -/
def isNumber (token : List Char) : Bool := !token.isEmpty && token.all Char.isDigit

/-- Why a path text is refused: it is not in path notation, or an index has too many digits. -/
inductive Refusal where
  | cause (cause : Cause)
  | numeralTooLong (digits : Nat)
deriving DecidableEq

/-- The position that stands between brackets. -/
def readPosition (token : List Char) : Except Refusal Nat :=
  if token.contains '[' then .error (.cause .nestedIndex)
  else if isNumber token then
    match Text.Numeral.read token with
    | .ok position => .ok position
    | .error digits => .error (.numeralTooLong digits)
  else
    let shown := String.ofList token
    match token with
    | '-' :: digits =>
      if isNumber digits then .error (.cause (.negativeIndex shown))
      else .error (.cause (.nonNumericIndex shown))
    | _ => .error (.cause (.nonNumericIndex shown))

/-- The indexes of a segment. Inside brackets the token so far is carried along, backwards. -/
def readIndexes : Option (List Char) → List Char → Except Refusal (List Element)
  | none, [] => .ok []
  | some _, [] => .error (.cause .unclosedIndex)
  | none, c :: rest =>
    if c = '[' then readIndexes (some []) rest
    else .error (.cause (.textAfterIndex (String.ofList (c :: rest))))
  | some token, c :: rest =>
    if c = ']' then do
      let position ← readPosition token.reverse
      let others ← readIndexes none rest
      return .index position :: others
    else readIndexes (some (c :: token)) rest

/-- The elements of one segment: its name, if it has one, and its indexes. -/
def readSegment (segment : List Char) : Except Refusal (List Element) :=
  if segment.isEmpty then .error (.cause .emptySegment)
  else
    let name := segment.takeWhile (· ≠ '[')
    if name.contains ']' then .error (.cause .unopenedIndex)
    else do
      let indexes ← readIndexes none (segment.dropWhile (· ≠ '['))
      return if name.isEmpty then indexes else .field (String.ofList name) :: indexes

/-- The elements that a text spells. -/
def readElements (text : List Char) : Except Refusal (List Element) :=
  if text.isEmpty then .ok []
  else List.flatten <$> (splitOn '.' text).mapM readSegment

/-- The path that a text spells. -/
def read (text : String) : Outcome Path :=
  match readElements text.toList with
  | .ok elements => .ok ⟨elements, text⟩
  | .error (.cause cause) => .error (.ofCause cause text)
  | .error (.numeralTooLong digits) => .error (.numeralTooLong digits)

/-- The path that a value spells; only texts spell paths. A value of another kind is named by its
literal. -/
def ofValue : Value → Outcome Path
  | .string text => read text
  | other => do
    let shown ← other.literal
    throw (.ofCause (.pathNotText other.typeName) shown)

/-- Whether a value spells a path. -/
def isValid (v : Value) : Outcome Bool :=
  match ofValue v with
  | .ok _ => .ok true
  | .error (.fault f) => if f.kind = .malformedPath then .ok false else .error (.fault f)
  | .error failure => .error failure

/-- The issue of a value that does not spell a path, if it does not. -/
def issuesOf (v : Value) : Outcome (List Issue) :=
  match ofValue v with
  | .ok _ => .ok []
  | .error (.fault f) =>
    if f.kind = .malformedPath then do
      let location ← v.plainText
      return [⟨.malformedPath, f.message, some location⟩]
    else .error (.fault f)
  | .error failure => .error failure

/-- The issues of the values that do not spell a path, in order. -/
def check (values : List Value) : Outcome Report := do
  let issues ← values.mapM issuesOf
  return { issues := issues.flatten }

end Recast.Path
