/-
Compiled expressions: a statement and what its placeholders stand for.

Two expressions are joined by AND if no placeholder stands for different things in them.
An empty statement asks nothing and disappears when joined.
-/
import ItemStore.Error

namespace ItemStore

/-- The text of a condition, in placeholders, and the tables that give them meaning. -/
structure Expression where
  statement : String := ""
  names : Dict String := ∅
  values : Dict Value := ∅
  deriving DecidableEq

namespace Expression

instance : EmptyCollection Expression := ⟨{}⟩

/-- The value placeholders in increasing order. -/
def valueNames (e : Expression) : List String :=
  e.values.keys

/-- Puts pairs into a table; a key bound to something else already is a clash. -/
def mergeWith {α : Type} [DecidableEq α] (clash : String → α → α → Error) :
    List (String × α) → Dict α → Except Error (Dict α)
  | [], d => .ok d
  | (k, a) :: pairs, d =>
    match d.find? k with
    | some bound =>
      if bound = a then mergeWith clash pairs d else .error (clash k bound a)
    | none => mergeWith clash pairs (d.insert k a)

/-- Puts name bindings into a table. -/
def mergeNames (d : Dict String) (pairs : List (String × String)) :
    Except Error (Dict String) :=
  mergeWith (fun k bound name => .expression (.nameClash k bound name)) pairs d

/-- Puts value bindings into a table. -/
def mergeValues (d : Dict Value) (pairs : List (String × Value)) :
    Except Error (Dict Value) :=
  mergeWith (fun k _ _ => .expression (.valueClash k)) pairs d

/-- Two statements joined by AND, of which either may be empty. -/
def joinStatements (s t : String) : String :=
  if s.isEmpty then t else if t.isEmpty then s else s ++ " AND " ++ t

/-- Both expressions at once; names are compared before values. -/
def and (e f : Expression) : Except Error Expression := do
  let names ← mergeNames e.names f.names.toList
  let values ← mergeValues e.values f.values.toList
  return { statement := joinStatements e.statement f.statement, names, values }

end Expression

end ItemStore
