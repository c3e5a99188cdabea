import Recast.Text.Case.Table

/-!
Lower and upper case of whole texts. A character may map to several. The capital sigma is the one
character whose lower case depends on its place: at the end of a word it becomes the final form.
-/

namespace Recast.Text.Case

/-- A character's image under a case mapping; one that no entry names maps to itself. -/
def mapping (sequences : List (Nat × List Nat)) (runs : List Run) (c : Char) : List Char :=
  match sequences.lookup c.toNat with
  | some image => image.map Char.ofNat
  | none => [Char.ofNat ((runs.findSome? (·.imageOf? c.toNat)).getD c.toNat)]

/-- Whether the nearest character that is not ignorable has a case. -/
def meetsCased (cs : List Char) : Bool :=
  match cs.dropWhile fun c => ignorable.mem c.toNat with
  | [] => false
  | c :: _ => cased.mem c.toNat

/-- The small sigma that stands between `before`, read backwards, and `after`. -/
def sigma (before after : List Char) : Char :=
  if meetsCased before && !meetsCased after then 'ς' else 'σ'

/-- The lower case of a text whose characters so far, read backwards, are `before`. -/
def lowerAfter : List Char → List Char → List Char
  | _, [] => []
  | before, c :: after =>
    (if c = 'Σ' then [sigma before after] else mapping lowerSequences lowerRuns c)
      ++ lowerAfter (c :: before) after

/-- A text in lower case. -/
def lower (s : String) : String := String.ofList (lowerAfter [] s.toList)

/-- A text in upper case. -/
def upper (s : String) : String :=
  String.ofList (s.toList.flatMap (mapping upperSequences upperRuns))

end Recast.Text.Case
