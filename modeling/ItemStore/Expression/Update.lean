/-
Updates and their compilation.

An update lists changes of fields in order, one per field: a further change of a field
takes the place of the first.  Compiling puts each change under one of four actions and
gives it a name placeholder and, if it has a value, a value placeholder and the encoding
of that value.  Fields of the key are left out, since a key does not change.

To set a field to nothing, or to an empty text, is to remove it.
-/
import ItemStore.Encoding
import ItemStore.Expression.Placeholder

namespace ItemStore

/-- What happens to one field. -/
inductive Change
  /-- Puts a value in place of the field; null and the empty text remove it. -/
  | set (v : Value)
  /-- Adds to a number, or members to a set. -/
  | increment (v : Value)
  /-- Takes members from a set. -/
  | decrement (v : Value)
  | remove
  deriving DecidableEq

/-- The action a change comes under, and the value it needs there. -/
def Change.action : Change → Keyword × Option Value
  | .set v => if Value.isNull v || Value.isEmptyText v then (.remove, none) else (.set, some v)
  | .increment v => (.add, some v)
  | .decrement v => (.delete, some v)
  | .remove => (.remove, none)

/-- Changes of fields, in order. -/
structure Update where
  fields : List (String × Change) := []
  deriving DecidableEq

namespace Update

instance : EmptyCollection Update := ⟨{}⟩

/-- Puts a change in place of the first one of a field, or else at the end. -/
def replace (name : String) (c : Change) : List (String × Change) → List (String × Change)
  | [] => [(name, c)]
  | (n, d) :: rest => if n = name then (n, c) :: rest else (n, d) :: replace name c rest

/-- Changes a field. -/
def field (u : Update) (name : String) (c : Change) : Update :=
  { fields := replace name c u.fields }

def set (u : Update) (name : String) (v : Value) : Update :=
  u.field name (.set v)

def increment (u : Update) (name : String) (v : Value) : Update :=
  u.field name (.increment v)

def decrement (u : Update) (name : String) (v : Value) : Update :=
  u.field name (.decrement v)

def remove (u : Update) (name : String) : Update :=
  u.field name .remove

/-- The update made by a list of changes, one after another. -/
def ofList (changes : List (String × Change)) : Update :=
  changes.foldl (fun u p => u.field p.1 p.2) ∅

end Update

/-- A compiled update: its operands and what their placeholders stand for. -/
structure UpdateExpression where
  clauses : Clauses := ∅
  names : Dict String := ∅
  values : Dict Attribute := ∅
  deriving DecidableEq

namespace UpdateExpression

instance : EmptyCollection UpdateExpression := ⟨{}⟩

/-- The text of the update. -/
def statement (e : UpdateExpression) : String :=
  e.clauses.statement

def isEmpty (e : UpdateExpression) : Bool :=
  e.clauses.isEmpty

/-- The operand of a field with a value: an assignment under SET, else the two side by
side. -/
def operand (k : Keyword) (name value : String) : String :=
  if k = .set then name ++ " = " ++ value else name ++ " " ++ value

/-- Compiles the change of one field after those before it. -/
def addField (serializer : Serializer) (schema : Schema) (e : UpdateExpression)
    (name : String) (c : Change) : Except Error UpdateExpression :=
  if schema.isKey name then .ok e
  else if (Text.clean name).isEmpty then .error (.argument (.wordlessName name))
  else
    let p := Placeholder.forName name e.names
    match c.action with
    | (k, none) => .ok { e with
        clauses := e.clauses.push k p
        names := e.names.insert p name }
    | (k, some v) => do
      let q := Placeholder.forValue name e.values.keys
      let encoded ← serializer.encode (schema.datatype? name) v
      return {
        clauses := e.clauses.push k (operand k p q)
        names := e.names.insert p name
        values := e.values.insert q encoded }

/-- Compiles the changes of the fields in order. -/
def addFields (serializer : Serializer) (schema : Schema) :
    List (String × Change) → UpdateExpression → Except Error UpdateExpression
  | [], e => .ok e
  | (name, c) :: rest, e => do addFields serializer schema rest (← e.addField serializer schema name c)

end UpdateExpression

/-- Compiles an update for a table. -/
def Update.compile (u : Update) (serializer : Serializer) (schema : Schema) :
    Except Error UpdateExpression :=
  UpdateExpression.addFields serializer schema u.fields ∅

end ItemStore
