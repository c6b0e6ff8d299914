/-
Updates and expressions in JSON.

An update read from JSON keeps its fields as they are written, repetitions included.
-/
import ItemStore.Expression.Basic
import ItemStore.Expression.Update
import ItemStore.Wire.Value

namespace ItemStore.Wire

def ofChange : Change → Json
  | .set v => .tagged "Set" (ofValue v)
  | .increment v => .tagged "Increment" (ofValue v)
  | .decrement v => .tagged "Decrement" (ofValue v)
  | .remove => .str "Remove"

def change? (j : Json) : Option Change :=
  if nameOf? j = some "Remove" then some .remove
  else (tagged? j).bind fun
    | ("Set", payload) => (value? payload).map .set
    | ("Increment", payload) => (value? payload).map .increment
    | ("Decrement", payload) => (value? payload).map .decrement
    | _ => none

/-- A field and its change, as a list of the two. -/
def fieldChange? : Json → Option (String × Change)
  | .list [name, change] => do return (← text? name, ← change? change)
  | _ => none

def ofUpdate (u : Update) : Json :=
  .ofMembers [("fields", .list (u.fields.map fun (name, c) => .list [.str name, ofChange c]))]

def update? (j : Json) : Option Update := do
  let fields ← fields? ["fields"] j
  return { fields := ← required fields "fields" (list? fieldChange?) }

def ofNames (names : Dict String) : Json := ofDict .str names

def ofExpression (e : Expression) : Json :=
  .ofMembers [
    ("statement", .str e.statement),
    ("attribute_names", ofNames e.names),
    ("attribute_values", ofDict ofValue e.values)]

def expression? (j : Json) : Option Expression := do
  let fields ← fields? ["statement", "attribute_names", "attribute_values"] j
  return {
    statement := ← required fields "statement" text?
    names := ← required fields "attribute_names" (dict? text?)
    values := ← required fields "attribute_values" (dict? value?) }

end ItemStore.Wire
