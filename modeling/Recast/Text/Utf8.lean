import Recast.Text.Numeral

/-!
Reading bytes as text: UTF-8 taken strictly, then one spelling of line ends. The decoder is a
machine that holds at most one unfinished character, so a fault names the bytes of that character
and the first thing that is wrong with them.
-/

namespace Recast.Text.Utf8

/-- What is wrong with a sequence of bytes. -/
inductive Reason where
  | start
  | continuation
  | truncated
deriving DecidableEq

/-- The bytes that cannot be read: `width` of them from `position`, the first being `lead`. -/
structure Fault where
  lead : Nat
  position : Nat
  width : Nat
  reason : Reason
deriving DecidableEq

def Reason.message : Reason → String
  | .start => "invalid start byte"
  | .continuation => "invalid continuation byte"
  | .truncated => "unexpected end of data"

def Fault.message (f : Fault) : String :=
  let what :=
    if f.width = 1 then
      "byte 0x" ++ String.ofList (Numeral.hex 2 f.lead) ++ s!" in position {f.position}"
    else
      let last := f.position + f.width - 1
      s!"bytes in position {f.position}-{last}"
  "'utf-8' codec can't decode " ++ what ++ ": " ++ f.reason.message

/-- A character of which `seen` bytes are read and `owed` more must follow; the next of them lies
between `low` and `high`, and `code` holds the bits read so far. -/
structure Unfinished where
  lead : Nat
  position : Nat
  seen : Nat
  owed : Nat
  low : Nat
  high : Nat
  code : Nat

def Unfinished.fault (u : Unfinished) (reason : Reason) : Fault :=
  ⟨u.lead, u.position, u.seen, reason⟩

/-- What a first byte announces: a whole character, or a number of further bytes, the limits of the
next one and the bits of the code point that are known. -/
inductive Opening where
  | whole
  | more (owed low high code : Nat)
  | none

/-- The role of a first byte. The limits of the second byte exclude overlong forms, surrogates and
code points past the last. -/
def opening (b : Nat) : Opening :=
  if b < 0x80 then .whole
  else if b < 0xC2 then .none
  else if b < 0xE0 then .more 1 0x80 0xBF (b - 0xC0)
  else if b = 0xE0 then .more 2 0xA0 0xBF 0
  else if b = 0xED then .more 2 0x80 0x9F (b - 0xE0)
  else if b < 0xF0 then .more 2 0x80 0xBF (b - 0xE0)
  else if b = 0xF0 then .more 3 0x90 0xBF 0
  else if b < 0xF4 then .more 3 0x80 0xBF (b - 0xF0)
  else if b = 0xF4 then .more 3 0x80 0x8F 4
  else .none

/-- The characters of the bytes from `position` on, after an unfinished character if there is one.
-/
def decodeFrom (position : Nat) : Option Unfinished → List Nat → Except Fault (List Char)
  | none, [] => .ok []
  | some u, [] => .error (u.fault .truncated)
  | none, b :: rest =>
    match opening b with
    | .whole => (Char.ofNat b :: ·) <$> decodeFrom (position + 1) none rest
    | .more owed low high code =>
      decodeFrom (position + 1) (some ⟨b, position, 1, owed, low, high, code⟩) rest
    | .none => .error ⟨b, position, 1, .start⟩
  | some u, b :: rest =>
    if u.low ≤ b ∧ b ≤ u.high then
      let code := u.code * 64 + (b - 0x80)
      if u.owed ≤ 1 then (Char.ofNat code :: ·) <$> decodeFrom (position + 1) none rest
      else
        decodeFrom (position + 1)
          (some ⟨u.lead, u.position, u.seen + 1, u.owed - 1, 0x80, 0xBF, code⟩) rest
    else .error (u.fault .continuation)

/-- The text that a sequence of bytes encodes. -/
def decode (bytes : List UInt8) : Except Fault String :=
  String.ofList <$> decodeFrom 0 none (bytes.map UInt8.toNat)

/-- Every line end, be it a line feed, a carriage return or both, as one line feed. -/
def unifyLineEnds : List Char → List Char
  | [] => []
  | '\r' :: '\n' :: rest => '\n' :: unifyLineEnds rest
  | '\r' :: rest => '\n' :: unifyLineEnds rest
  | c :: rest => c :: unifyLineEnds rest

/-- The content of a text file. -/
def decodeFile (bytes : List UInt8) : Except Fault String :=
  (fun s => String.ofList (unifyLineEnds s.toList)) <$> decode bytes

end Recast.Text.Utf8
