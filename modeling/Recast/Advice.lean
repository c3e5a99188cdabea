import Recast.Failure

/-!
What to do about a fault: advice by the category of the repair it calls for, with the place of the
fault. A missing path is the one fault that a caller can go on from.
-/

namespace Recast

structure Advice where
  canRecover : Bool
  action : String
  path : Option String
  ruleIndex : Option Int
  rulePath : List Int
deriving DecidableEq

def Category.action : Category → String
  | .malformedPath =>
    "Fix the path syntax: segments are separated by '.', "
      ++ "indexes are written as [n] with a non-negative integer."
  | .pathNotFound =>
    "Check that the path exists in the document, or use the "
      ++ "try/optional extraction variants to treat absence as data."
  | .typeMismatch =>
    "Check the kind of value at the path against the operation or decoder used."
  | .validation =>
    "Fix the input value rejected by the validator, or relax the "
      ++ "validators configured on the failing rule."
  | .config => "Fix the rule document at the reported location."
  | .syntaxError => "Unknown error type. Please check logs and retry."

/-- Advice on a fault that is taken to be of a category. -/
def Fault.adviceAs (f : Fault) (category : Category) : Advice :=
  { canRecover := category = .pathNotFound
    action := category.action
    path := f.path
    ruleIndex := f.ruleIndex
    rulePath := f.rulePath }

def Fault.advice (f : Fault) : Advice := f.adviceAs f.kind.category

end Recast
