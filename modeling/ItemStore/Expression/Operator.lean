/-
The operators of conditions: six comparisons, a range, a choice among values, and seven
functions that are written as calls.
-/
import ItemStore.Text.Blank

namespace ItemStore

/-- A comparison of an attribute with one operand. -/
inductive Comparison
  | eq | ne | lt | le | gt | ge
  deriving DecidableEq, Repr

/-- A function of an attribute and at most one operand. -/
inductive Function
  | attributeExists | attributeNotExists | attributeType
  | beginsWith | contains | notContains | size
  deriving DecidableEq, Repr

/-- An operator of a condition. -/
inductive Operator
  | compare (c : Comparison)
  | between
  | oneOf
  | call (f : Function)
  deriving DecidableEq, Repr

namespace Comparison

def text : Comparison → String
  | eq => "="
  | ne => "<>"
  | lt => "<"
  | le => "<="
  | gt => ">"
  | ge => ">="

end Comparison

namespace Function

def text : Function → String
  | attributeExists => "attribute_exists"
  | attributeNotExists => "attribute_not_exists"
  | attributeType => "attribute_type"
  | beginsWith => "begins_with"
  | contains => "contains"
  | notContains => "NOT contains"
  | size => "size"

end Function

namespace Operator

def all : List Operator :=
  [compare .eq, compare .ne, compare .lt, compare .le, compare .gt, compare .ge,
    between, oneOf, call .attributeExists, call .attributeNotExists, call .attributeType,
    call .beginsWith, call .contains, call .notContains, call .size]

/-- The operator as expressions write it. -/
def text : Operator → String
  | compare c => c.text
  | between => "BETWEEN"
  | oneOf => "IN"
  | call f => f.text

/-- The operator is written as a call. -/
def isFunction : Operator → Bool
  | call _ => true
  | _ => false

/-- The operator with a given text, blanks around it aside. -/
def ofText? (s : String) : Option Operator :=
  all.find? fun op => op.text = Text.trim s

end Operator

end ItemStore
