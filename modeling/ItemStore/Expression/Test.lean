/-
Conditions on one attribute.

A condition is an operator with up to two operands, not all of which fit.  `Test` is what
is left when they do: a comparison has its operand, a range both of its ends, a choice at
least one candidate.  `Test.ofOperands` is the check, with the two rewrites that callers
rely on: a date stands for its canonical text, and the question whether an attribute exists
may be asked with a truth value, `false` turning it round.

Compiling a test is then without further failure, but for a path that has no placeholder.
-/
import ItemStore.Expression.Basic
import ItemStore.Expression.Placeholder

namespace ItemStore

/-- Recognises an operator. -/
def Operator.read (s : String) : Except Error Operator :=
  match ofText? s with
  | some op => .ok op
  | none => .error (.unsupportedOperator (Text.trim s))

/-- What is asked of an attribute. -/
inductive Test
  | compare (c : Comparison) (operand : Value)
  | between (low high : Value)
  | oneOf (first : Value) (others : List Value)
  | call (f : Function) (operand : Option Value)
  deriving DecidableEq

namespace Test

/-- The candidates of a choice. -/
def ofChoice : (value value2 : Option Value) → Except Error Test
  | _, some _ => .error (.argument .choiceWithSecondOperand)
  | some (.list (v :: vs)), none => .ok (.oneOf (Value.normalized v) (vs.map Value.normalized))
  | some (.list []), none => .error (.argument .choiceEmpty)
  | _, none => .error (.argument .choiceNotList)

/-- The question whether an attribute exists, turned round by `false`. -/
def existence : Option Value → Function × Option Value
  | some (.leaf (.bool true)) => (.attributeExists, none)
  | some (.leaf (.bool false)) => (.attributeNotExists, none)
  | value => (.attributeExists, value)

/-- A call: existence takes no operand, every other function at most one. -/
def ofCall (f : Function) (value value2 : Option Value) : Except Error Test :=
  let (f, value) := if f = .attributeExists then existence value else (f, value)
  if (f = .attributeExists || f = .attributeNotExists) && value.isSome then
    .error (.argument (.operandRefused (.call f)))
  else if value2.isSome then .error (.argument (.operandTooMany (.call f)))
  else .ok (.call f value)

/-- The test that an operator asks with its operands, if they fit it. -/
def ofOperands (op : Operator) (value value2 : Option Value) : Except Error Test :=
  match op with
  | .oneOf => ofChoice value value2
  | .between =>
    match value.map Value.normalized, value2.map Value.normalized with
    | some low, some high => .ok (.between low high)
    | _, _ => .error (.argument (.operandsMissing .between))
  | .compare c =>
    match value.map Value.normalized, value2 with
    | some v, none => .ok (.compare c v)
    | none, _ => .error (.argument (.operandMissing (.compare c)))
    | some _, some _ => .error (.argument (.operandTooMany (.compare c)))
  | .call f => ofCall f (value.map Value.normalized) value2

/-- The operands in the order they are written. -/
def operands : Test → List Value
  | compare _ v => [v]
  | between low high => [low, high]
  | oneOf v vs => v :: vs
  | call _ none => []
  | call _ (some v) => [v]

/-- The text of the test of a target, its operands given by placeholders. -/
def statement (target : String) (placeholders : List String) : Test → String
  | compare c _ => target ++ " " ++ c.text ++ " " ++ ", ".intercalate placeholders
  | between .. => target ++ " BETWEEN " ++ " AND ".intercalate placeholders
  | oneOf .. => target ++ " IN (" ++ ", ".intercalate placeholders ++ ")"
  | call f _ => f.text ++ "(" ++ ", ".intercalate (target :: placeholders) ++ ")"

/-- The expression that asks a test of a path, its placeholders clear of those in use. -/
def compile (t : Test) (path : String) (taken : List String) (names : Dict String) :
    Except Error Expression := do
  let target ← PathPlaceholders.ofPath path names
  let values := Placeholder.forValues path t.operands taken
  return {
    statement := t.statement target.text (values.map (·.1))
    names := .ofList target.names
    values := .ofList values }

end Test

/-- A condition on one path, compiled on its own, clear of the value placeholders given. -/
def filterExpression (path : String) (op : Operator) (taken : List String)
    (value value2 : Option Value) : Except Error Expression := do
  let t ← Test.ofOperands op value value2
  t.compile path taken ∅

end ItemStore
