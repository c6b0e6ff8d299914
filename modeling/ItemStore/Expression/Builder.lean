/-
Conditions joined one after another.

The builder keeps what it has bound so far, so that every further condition gets value
placeholders of its own and shares the name placeholders of the attributes it has in
common with the others.  Names in use elsewhere in the same request can be reserved.
-/
import ItemStore.Expression.Test

namespace ItemStore

/-- Conditions joined so far, and the placeholders that are not to be used again. -/
structure Builder where
  fragments : List String := []
  names : Dict String := ∅
  values : Dict Value := ∅
  reserved : List String := []
  deriving DecidableEq

namespace Builder

instance : EmptyCollection Builder := ⟨{}⟩

/-- Keeps later conditions clear of value placeholders used elsewhere. -/
def reserve (b : Builder) (names : List String) : Builder :=
  { b with reserved := b.reserved ++ names }

/-- Adds a condition. -/
def condition (b : Builder) (path : String) (op : Operator) (value value2 : Option Value) :
    Except Error Builder := do
  let t ← Test.ofOperands op value value2
  let fragment ← t.compile path (b.reserved ++ b.values.keys) b.names
  let names ← Expression.mergeNames b.names fragment.names.toList
  return { b with
    fragments := b.fragments ++ [fragment.statement]
    names
    values := b.values.union fragment.values }

/-- Adds a comparison, or any condition with one operand. -/
def compare (b : Builder) (path : String) (op : Operator) (value : Value) :=
  b.condition path op (some value) none

def between (b : Builder) (path : String) (low high : Value) :=
  b.condition path .between (some low) (some high)

def oneOf (b : Builder) (path : String) (candidates : List Value) :=
  b.condition path .oneOf (some (.list candidates)) none

def attributeExists (b : Builder) (path : String) :=
  b.condition path (.call .attributeExists) none none

def attributeNotExists (b : Builder) (path : String) :=
  b.condition path (.call .attributeNotExists) none none

def beginsWith (b : Builder) (path : String) (start : Value) :=
  b.condition path (.call .beginsWith) (some start) none

def contains (b : Builder) (path : String) (operand : Value) :=
  b.condition path (.call .contains) (some operand) none

def isEmpty (b : Builder) : Bool :=
  b.fragments.isEmpty

/-- All conditions joined by AND, if there are any. -/
def build (b : Builder) : Option Expression :=
  if b.fragments.isEmpty then none
  else some {
    statement := " AND ".intercalate b.fragments
    names := b.names
    values := b.values }

end Builder

end ItemStore
