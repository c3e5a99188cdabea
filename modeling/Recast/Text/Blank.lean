/-!
Sets of code points, held as ascending ranges with both ends included, and the blank characters as
one of them: a blank is any character that Unicode counts as white space, or one of the four
information separators U+001C to U+001F. Texts are trimmed of their blanks.
-/

namespace Recast.Text

/-- A set of code points as ascending, disjoint ranges. -/
abbrev Ranges := List (Nat × Nat)

/-- Whether a code point lies in one of the ranges. -/
def Ranges.mem : Ranges → Nat → Bool
  | [], _ => false
  | (first, last) :: rest, c => (first ≤ c && c ≤ last) || Ranges.mem rest c

/-- The code points of blank characters. -/
def blanks : Ranges :=
  [(0x9, 0xd), (0x1c, 0x20), (0x85, 0x85), (0xa0, 0xa0), (0x1680, 0x1680), (0x2000, 0x200a),
   (0x2028, 0x2029), (0x202f, 0x202f), (0x205f, 0x205f), (0x3000, 0x3000)]

/-- Whether a character is blank. -/
def isBlank (c : Char) : Bool := blanks.mem c.toNat

/-- The characters from the first that is not blank. -/
def trimStart (cs : List Char) : List Char := cs.dropWhile isBlank

/-- The characters up to the last that is not blank. -/
def trimEnd (cs : List Char) : List Char := (trimStart cs.reverse).reverse

/-- A text without the blanks at its two ends. -/
def trim (s : String) : String := String.ofList (trimEnd (trimStart s.toList))

/-- Whether a text holds nothing but blanks. -/
def isBlankText (s : String) : Bool := s.toList.all isBlank

end Recast.Text
