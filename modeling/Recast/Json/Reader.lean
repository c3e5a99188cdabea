import Recast.Double.Rounding
import Recast.Failure
import Recast.Text.Numeral
import Recast.Value.Basic

/-!
Reading JSON text. Besides standard JSON the words `NaN`, `Infinity` and `-Infinity` are numbers. A
numeral with a fraction or an exponent is a double, any other an integer. Of two fields with one
name the later gives the value and the earlier the place.

Readers take characters and return what is left of them. Where one stops at a fault it gives the
text from the fault on, so that the place of the fault follows from how much text is left.
-/

namespace Recast.Json

/-- What is wrong with a text. -/
inductive SyntaxFault where
  | byteOrderMark
  | valueExpected
  | nameExpected
  | colonExpected
  | commaExpected
  | unterminatedText
  | controlCharacter
  | invalidEscape
  | invalidUnicodeEscape
  | textAfterValue
deriving DecidableEq

def SyntaxFault.message : SyntaxFault → String
  | .byteOrderMark => "Unexpected UTF-8 BOM (decode using utf-8-sig)"
  | .valueExpected => "Expecting value"
  | .nameExpected => "Expecting property name enclosed in double quotes"
  | .colonExpected => "Expecting ':' delimiter"
  | .commaExpected => "Expecting ',' delimiter"
  | .unterminatedText => "Unterminated string starting at"
  | .controlCharacter => "Invalid control character at"
  | .invalidEscape => "Invalid \\escape"
  | .invalidUnicodeEscape => "Invalid \\uXXXX escape"
  | .textAfterValue => "Extra data"

/-- Why reading stopped: at a fault, with the text from there on, or at a numeral with too many
digits. -/
inductive Stop where
  | fault (fault : SyntaxFault) (rest : List Char)
  | numeralTooLong (digits : Nat)
deriving DecidableEq

/-- The four characters that may stand around values. -/
def isSpace (c : Char) : Bool := c = ' ' || c = '\t' || c = '\n' || c = '\r'

def skipSpace (s : List Char) : List Char := s.dropWhile isSpace

/-! ## Texts -/

/-- The character that a one-character escape stands for. -/
def unescape? : Char → Option Char
  | '"' => some '"'
  | '\\' => some '\\'
  | '/' => some '/'
  | 'b' => some '\x08'
  | 'f' => some '\x0c'
  | 'n' => some '\n'
  | 'r' => some '\r'
  | 't' => some '\t'
  | _ => none

/-- The number that four hexadecimal digits make. -/
def unit? (a b c d : Char) : Option Nat := do
  let a ← Text.Numeral.hexValue? a
  let b ← Text.Numeral.hexValue? b
  let c ← Text.Numeral.hexValue? c
  let d ← Text.Numeral.hexValue? d
  return ((a * 16 + b) * 16 + c) * 16 + d

def isHighSurrogate (n : Nat) : Bool := 0xD800 ≤ n && n < 0xDC00

def isLowSurrogate (n : Nat) : Bool := 0xDC00 ≤ n && n < 0xE000

/-- The code point that a pair of surrogates stands for. -/
def joinSurrogates (high low : Nat) : Nat := 0x10000 + (high - 0xD800) * 0x400 + (low - 0xDC00)

/-- A character by its number. A surrogate without its partner is no character and is replaced. -/
def charOf (n : Nat) : Char :=
  if isHighSurrogate n || isLowSurrogate n then '\uFFFD' else Char.ofNat n

/-- The character that an escape by number stands for and the width of the escape, where `s` follows
its `u`. Two escapes that make a pair of surrogates are one character. An escape by number must be
followed by more text. -/
def readNumbered (s : List Char) : Except Stop (Char × Nat) :=
  match s with
  | a :: b :: c :: d :: next :: rest =>
    match unit? a b c d with
    | none => .error (.fault .invalidUnicodeEscape ('u' :: s))
    | some n =>
      match isHighSurrogate n, next, rest with
      | true, '\\', 'u' :: e :: f :: g :: h :: _ :: _ =>
        match unit? e f g h with
        | none => .error (.fault .invalidUnicodeEscape rest)
        | some m =>
          if isLowSurrogate m then .ok (charOf (joinSurrogates n m), 11) else .ok (charOf n, 5)
      | _, _, _ => .ok (charOf n, 5)
  | _ => .error (.fault .invalidUnicodeEscape ('u' :: s))

/-- The character that an escape stands for and the width of the escape, where `s` follows its
backslash in a text that opened at `start`. -/
def readEscape (start : List Char) (s : List Char) : Except Stop (Char × Nat) :=
  match s with
  | [] => .error (.fault .unterminatedText start)
  | 'u' :: rest => readNumbered rest
  | e :: _ =>
    match unescape? e with
    | some c => .ok (c, 1)
    | none => .error (.fault .invalidEscape ('\\' :: s))

/-- The rest of a text that opened at `start`, after the characters `before`, read backwards. The
first `skip` characters belong to an escape that is already read. -/
def readText (start : List Char) : Nat → List Char → List Char →
    Except Stop (String × List Char)
  | _, _, [] => .error (.fault .unterminatedText start)
  | skip + 1, before, _ :: rest => readText start skip before rest
  | 0, before, c :: rest =>
    if c = '"' then .ok (String.ofList before.reverse, rest)
    else if c = '\\' then
      match readEscape start rest with
      | .ok (e, width) => readText start width (e :: before) rest
      | .error stop => .error stop
    else if c.toNat < 0x20 then .error (.fault .controlCharacter (c :: rest))
    else readText start 0 (c :: before) rest

/-! ## Numbers -/

/-- The digits at the front and the text after them. -/
def spanDigits (s : List Char) : List Char × List Char :=
  (s.takeWhile Char.isDigit, s.dropWhile Char.isDigit)

/-- The digits before the point: a zero alone, or as many as there are. -/
def wholePart : List Char → List Char × List Char
  | '0' :: rest => (['0'], rest)
  | s => spanDigits s

/-- The digits after a point; a point without digits after it is left alone. -/
def fractionPart (s : List Char) : List Char × List Char :=
  match s with
  | '.' :: rest =>
    match spanDigits rest with
    | ([], _) => ([], s)
    | found => found
  | _ => ([], s)

/-- An exponent; without digits it is left alone. -/
def exponentPart (s : List Char) : Option Int × List Char :=
  match s with
  | e :: rest =>
    if e = 'e' ∨ e = 'E' then
      let (negative, digits) : Bool × List Char := match rest with
        | '-' :: r => (true, r)
        | '+' :: r => (false, r)
        | r => (false, r)
      match spanDigits digits with
      | ([], _) => (none, s)
      | (ds, after) =>
        let n : Int := Text.Numeral.value ds
        (some (if negative then -n else n), after)
    else (none, s)
  | [] => (none, s)

/-- A number whose sign is read; `start` is the text from its sign on. -/
def readNumber (start : List Char) (negative : Bool) (s : List Char) :
    Except Stop (Value × List Char) :=
  match wholePart s with
  | ([], _) => .error (.fault .valueExpected start)
  | (whole, rest) =>
    let (fraction, rest) := fractionPart rest
    let (exponent, rest) := exponentPart rest
    if fraction.isEmpty && exponent.isNone then
      match Text.Numeral.read whole with
      | .ok n => .ok (.int (if negative then -(n : Int) else n), rest)
      | .error digits => .error (.numeralTooLong digits)
    else
      let digits := Text.Numeral.value (whole ++ fraction)
      let d := Double.ofDecimal negative digits (exponent.getD 0 - fraction.length)
      .ok (.double d, rest)

/-- A value that is written as a word or a numeral. -/
def readScalar : List Char → Except Stop (Value × List Char)
  | 'n' :: 'u' :: 'l' :: 'l' :: rest => .ok (.null, rest)
  | 't' :: 'r' :: 'u' :: 'e' :: rest => .ok (.bool true, rest)
  | 'f' :: 'a' :: 'l' :: 's' :: 'e' :: rest => .ok (.bool false, rest)
  | 'N' :: 'a' :: 'N' :: rest => .ok (.double .nan, rest)
  | 'I' :: 'n' :: 'f' :: 'i' :: 'n' :: 'i' :: 't' :: 'y' :: rest =>
    .ok (.double (.infinity false), rest)
  | '-' :: 'I' :: 'n' :: 'f' :: 'i' :: 'n' :: 'i' :: 't' :: 'y' :: rest =>
    .ok (.double (.infinity true), rest)
  | '-' :: rest => readNumber ('-' :: rest) true rest
  | s => readNumber s false s

/-! ## Values -/

mutual

/-- A value at the front of a text. The first argument bounds the calls inside one another; twice
the length of the text is enough. -/
def readValue : Nat → List Char → Except Stop (Value × List Char)
  | 0, s => .error (.fault .valueExpected s)
  | fuel + 1, s =>
    match s with
    | '"' :: rest => do
      let (text, rest) ← readText s 0 [] rest
      return (.string text, rest)
    | '[' :: rest =>
      match skipSpace rest with
      | ']' :: rest => .ok (.list [], rest)
      | rest => do
        let (items, rest) ← readItems fuel rest
        return (.list items, rest)
    | '\x7b' :: rest =>
      match skipSpace rest with
      | '\x7d' :: rest => .ok (.object [], rest)
      | rest => do
        let (fields, rest) ← readFields fuel rest
        return (.object (Fields.setAll [] fields), rest)
    | _ => readScalar s

/-- The items of an array up to its end. -/
def readItems : Nat → List Char → Except Stop (List Value × List Char)
  | 0, s => .error (.fault .valueExpected s)
  | fuel + 1, s => do
    let (item, rest) ← readValue fuel s
    match skipSpace rest with
    | ']' :: rest => return ([item], rest)
    | ',' :: rest =>
      let (items, rest) ← readItems fuel (skipSpace rest)
      return (item :: items, rest)
    | rest => .error (.fault .commaExpected rest)

/-- The fields of an object up to its end, as they are written. -/
def readFields : Nat → List Char → Except Stop (Fields × List Char)
  | 0, s => .error (.fault .nameExpected s)
  | fuel + 1, s =>
    match s with
    | '"' :: rest => do
      let (name, rest) ← readText s 0 [] rest
      match skipSpace rest with
      | ':' :: rest =>
        let (value, rest) ← readValue fuel (skipSpace rest)
        match skipSpace rest with
        | '\x7d' :: rest => return ([(name, value)], rest)
        | ',' :: rest =>
          let (fields, rest) ← readFields fuel (skipSpace rest)
          return ((name, value) :: fields, rest)
        | rest => .error (.fault .commaExpected rest)
      | rest => .error (.fault .colonExpected rest)
    | s => .error (.fault .nameExpected s)

end

/-- The one value that a whole text holds, with nothing but space around it. -/
def readWhole (s : List Char) : Except Stop Value :=
  match s with
  | '\uFEFF' :: _ => .error (.fault .byteOrderMark s)
  | _ => do
    let (value, rest) ← readValue (2 * s.length + 2) (skipSpace s)
    match skipSpace rest with
    | [] => return value
    | rest => .error (.fault .textAfterValue rest)

/-- A place in a text: a line and a column, both counted from one, and the number of characters
before it. -/
structure Place where
  line : Nat
  column : Nat
  offset : Nat
deriving DecidableEq

/-- The place of the character that follows `before`. -/
def Place.after (before : List Char) : Place :=
  ⟨before.count '\n' + 1, (before.reverse.takeWhile (· ≠ '\n')).length + 1, before.length⟩

/-- Why a text cannot be read: it is not JSON, or it holds a numeral with too many digits. -/
inductive ReadFault where
  | syntaxFault (fault : SyntaxFault) (place : Place)
  | numeralTooLong (digits : Nat)
deriving DecidableEq

/-- The failure of an operation that needed the text's value. -/
def ReadFault.failure : ReadFault → Failure
  | .syntaxFault fault place =>
    .signal .json
      s!"{fault.message}: line {place.line} column {place.column} (char {place.offset})"
  | .numeralTooLong digits => .numeralTooLong digits

/-- The value of a JSON text. -/
def read (text : String) : Except ReadFault Value :=
  let s := text.toList
  match readWhole s with
  | .ok value => .ok value
  | .error (.fault fault rest) =>
    .error (.syntaxFault fault (.after (s.take (s.length - rest.length))))
  | .error (.numeralTooLong digits) => .error (.numeralTooLong digits)

end Recast.Json
