/-!
Text on a stream that is no terminal. Control sequences, which only a terminal obeys, are left out,
and a line ends in a line feed alone.
-/

namespace Recast.Text.Stream

/-- The character that every control sequence starts with. -/
def escape : Char := '\x1b'

def between (low high c : Char) : Bool := low ≤ c && c ≤ high

/-- How many characters of a control sequence follow its escape character: a bracket, parameters,
intermediate characters and one final character. -/
def sequenceWidth? : List Char → Option Nat
  | '[' :: rest =>
    let parameters := rest.takeWhile (between '0' '?')
    let rest := rest.dropWhile (between '0' '?')
    let intermediates := rest.takeWhile (between ' ' '/')
    match rest.dropWhile (between ' ' '/') with
    | final :: _ =>
      if between '@' '~' final then some (2 + parameters.length + intermediates.length) else none
    | [] => none
  | _ => none

/-- The characters outside control sequences; the first `skip` belong to one that has begun. -/
def withoutSequences : Nat → List Char → List Char
  | _, [] => []
  | skip + 1, _ :: rest => withoutSequences skip rest
  | 0, c :: rest =>
    if c = escape then
      match sequenceWidth? rest with
      | some width => withoutSequences width rest
      | none => c :: withoutSequences 0 rest
    else c :: withoutSequences 0 rest

/-- The characters without the carriage returns in front of line feeds. -/
def withoutReturns : List Char → List Char
  | [] => []
  | '\r' :: '\n' :: rest => '\n' :: withoutReturns rest
  | c :: rest => c :: withoutReturns rest

/-- A text as the stream carries it. -/
def plain (s : String) : String := String.ofList (withoutReturns (withoutSequences 0 s.toList))

end Recast.Text.Stream
