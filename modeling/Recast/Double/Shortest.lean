import Recast.Double.Basic
import Recast.Text.Numeral

/-!
The decimal text of a double: the fewest digits that read back as the same double, and of those the
nearest to it. The reals that round to a double form an interval around it. On the grid of decimals
with `n` digits only the two neighbours of the double can be the nearest grid points in that
interval, so the search looks at these two for `n` from 1 on and stops at the first grid with a hit.
-/

namespace Recast.Double

/-- A positive decimal: its digits, of which the last is not zero unless it is the only one, and the
number of digits before the point, negative when zeros follow the point. -/
structure Decimal where
  digits : List Char
  point : Int
deriving DecidableEq

/-- The reals that round to a positive double, with the double itself: a lower end, the value and an
upper end over one denominator, and whether the ends belong to the interval. -/
structure Interval where
  low : Nat
  value : Nat
  high : Nat
  den : Nat
  closed : Bool

/-- The interval of a positive finite double. The gap below a power of two is half as wide. -/
def interval (exponent : Fin 2047) (fraction : Fraction) : Interval :=
  let m := significand exponent fraction
  let up := Nat.pow 2 (scale exponent - 1076)
  let below := if fraction.val = 0 ∧ 1 < exponent.val then 1 else 2
  let den := Nat.pow 2 (1076 - scale exponent)
  ⟨(4 * m - below) * up, 4 * m * up, (4 * m + 2) * up, den, m % 2 = 0⟩

namespace Interval

/-- The number of digits before the point of the value. Every positive double is above `10 ^ -340`,
so the value can be scaled to have all its leading digits before the point. -/
def point (i : Interval) : Int :=
  (Text.Numeral.write (i.value * Nat.pow 10 340 / i.den)).length - 340

/-- Whether `c * 10 ^ e` lies in the interval. -/
def holds (i : Interval) (c : Nat) (e : Int) : Bool :=
  let x := c * Nat.pow 10 e.toNat * i.den
  let s := Nat.pow 10 (-e).toNat
  if i.closed then i.low * s ≤ x && x ≤ i.high * s else i.low * s < x && x < i.high * s

/-- The greatest `c` such that `c * 10 ^ e` is at most the value. -/
def floor (i : Interval) (e : Int) : Nat :=
  i.value * Nat.pow 10 (-e).toNat / (i.den * Nat.pow 10 e.toNat)

/-- Of the grid points `c` and `c + 1` around the value the nearer one, at equal distance the even
one. -/
def nearer (i : Interval) (c : Nat) (e : Int) : Nat :=
  let middle := (2 * c + 1) * Nat.pow 10 e.toNat * i.den
  let twice := 2 * i.value * Nat.pow 10 (-e).toNat
  if twice < middle ∨ (twice = middle ∧ c % 2 = 0) then c else c + 1

/-- The grid point for exponent `e` that reads back as the value, if there is one. -/
def hit? (i : Interval) (e : Int) : Option Nat :=
  let c := i.floor e
  match i.holds c e, i.holds (c + 1) e with
  | true, true => some (i.nearer c e)
  | true, false => some c
  | false, true => some (c + 1)
  | false, false => none

/-- The grid point and its exponent on the first grid with a hit, from exponent `e` down; the last
grid tried is `steps` below. -/
def search (i : Interval) : Nat → Int → Nat × Int
  | 0, e => (i.floor e, e)
  | steps + 1, e =>
    match i.hit? e with
    | some c => (c, e)
    | none => search i steps (e - 1)

end Interval

/-- Digits without the zeros at their end; of zeros alone one is left. -/
def dropZeros (digits : List Char) : List Char :=
  match (digits.reverse.dropWhile (· = '0')).reverse with
  | [] => ['0']
  | ds => ds

/-- The shortest decimal that reads back as a positive finite double. Seventeen digits always do. -/
def shortest (exponent : Fin 2047) (fraction : Fraction) : Decimal :=
  let i := interval exponent fraction
  let (c, e) := i.search 17 (i.point - 1)
  let digits := Text.Numeral.write c
  ⟨dropZeros digits, digits.length + e⟩

/-- The spellings of the doubles that are no numbers. -/
structure Spelling where
  nan : String
  infinity : String

namespace Decimal

/-- Zeros are written out for points from `-3` to `16`; outside, the decimal has an exponent. -/
def isPositional (d : Decimal) : Bool := -4 < d.point && d.point ≤ 16

/-- The exponent with its sign and at least two digits. -/
def exponentText (e : Int) : List Char :=
  let digits := Text.Numeral.write e.natAbs
  (if e < 0 then '-' else '+') :: (if digits.length < 2 then '0' :: digits else digits)

/-- The decimal written out; a whole number ends in `.0`. -/
def text (d : Decimal) : List Char :=
  if d.isPositional then
    if d.point ≤ 0 then '0' :: '.' :: List.replicate (-d.point).toNat '0' ++ d.digits
    else
      let n := d.point.toNat
      if d.digits.length ≤ n then
        d.digits ++ List.replicate (n - d.digits.length) '0' ++ ['.', '0']
      else d.digits.take n ++ '.' :: d.digits.drop n
  else
    let mantissa := match d.digits with
      | first :: second :: rest => first :: '.' :: second :: rest
      | short => short
    mantissa ++ 'e' :: exponentText (d.point - 1)

end Decimal

/-- The text of a double. -/
def text (spelling : Spelling) : Double → List Char
  | .nan => spelling.nan.toList
  | .infinity negative => (if negative then ['-'] else []) ++ spelling.infinity.toList
  | .finite negative exponent fraction =>
    let unsigned :=
      if exponent.val = 0 ∧ fraction.val = 0 then ['0', '.', '0']
      else (shortest exponent fraction).text
    if negative then '-' :: unsigned else unsigned

end Recast.Double
