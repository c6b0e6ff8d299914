/-
Nested data in JSON.

Values and attributes are written as objects with one member, whose name tells the kind:
`L` for a list, `M` for a record, and others for leaves.  Free-form data is written as
itself.
-/
import ItemStore.Datum
import ItemStore.Wire.Decode

namespace ItemStore.Wire

variable {α : Type}

/-! ### Tagged data -/

mutual

/-- Tagged data, its leaves written by a function of their own. -/
def ofTree (ofLeaf : α → Json) : Tree α → Json
  | .leaf a => ofLeaf a
  | .list items => .tagged "L" (.list (ofItems ofLeaf items))
  | .record fields => .tagged "M" (.object (ofFields ofLeaf fields))
termination_by structural t => t

def ofItems (ofLeaf : α → Json) : List (Tree α) → List Json
  | [] => []
  | t :: ts => ofTree ofLeaf t :: ofItems ofLeaf ts
termination_by structural ts => ts

def ofFields (ofLeaf : α → Json) :
    {lo : Option String} → Entries (Tree α) lo → List (Json.Text × Json)
  | _, .nil => []
  | _, .cons key _ t rest => (.plain key, ofTree ofLeaf t) :: ofFields ofLeaf rest
termination_by structural _ fields => fields

end

mutual

/-- Reads tagged data. -/
def tree? (leaf? : Json → Option α) : Json → Option (Tree α)
  | .object [(.plain "L", .list items)] => (items? leaf? items).map .list
  | .object [(.plain "M", .object members)] =>
    (members? leaf? members).map fun pairs => .record (.ofList pairs)
  | j => (leaf? j).map .leaf

def items? (leaf? : Json → Option α) : List Json → Option (List (Tree α))
  | [] => some []
  | j :: js => do return (← tree? leaf? j) :: (← items? leaf? js)

def members? (leaf? : Json → Option α) :
    List (Json.Text × Json) → Option (List (String × Tree α))
  | [] => some []
  | (.plain k, j) :: rest => do
    let t ← tree? leaf? j
    return (k, t) :: (← members? leaf? rest)
  | (.broken .., _) :: _ => none

end

/-! ### Free-form data -/

def ofDatumLeaf : Datum.Leaf → Json
  | .null => .null
  | .bool b => .bool b
  | .integer n => .int n
  | .double x => .double x
  | .text s => .str s

mutual

/-- Free-form data as itself. -/
def ofDatum : Datum → Json
  | .leaf a => ofDatumLeaf a
  | .list items => .list (ofData items)
  | .record fields => .object (ofDatumFields fields)
termination_by structural t => t

def ofData : List Datum → List Json
  | [] => []
  | t :: ts => ofDatum t :: ofData ts
termination_by structural ts => ts

def ofDatumFields : {lo : Option String} → Entries Datum lo → List (Json.Text × Json)
  | _, .nil => []
  | _, .cons key _ t rest => (.plain key, ofDatum t) :: ofDatumFields rest
termination_by structural _ fields => fields

end

mutual

/-- Reads free-form data; only what has no value is refused. -/
def datum? : Json → Option Datum
  | .null => some (.leaf .null)
  | .bool b => some (.leaf (.bool b))
  | .number (.integer n) => some (.leaf (.integer n))
  | .number (.double x) => some (.leaf (.double x))
  | .number .outOfRange => none
  | .text (.plain s) => some (.leaf (.text s))
  | .text (.broken ..) => none
  | .list items => (data? items).map .list
  | .object members => (datumMembers? members).map fun pairs => .record (.ofList pairs)
  | .tooDeep _ => none

def data? : List Json → Option (List Datum)
  | [] => some []
  | j :: js => do return (← datum? j) :: (← data? js)

def datumMembers? : List (Json.Text × Json) → Option (List (String × Datum))
  | [] => some []
  | (.plain k, j) :: rest => do
    let t ← datum? j
    return (k, t) :: (← datumMembers? rest)
  | (.broken .., _) :: _ => none

end

end ItemStore.Wire
