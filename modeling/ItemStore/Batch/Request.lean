/-
Requests for many items and the store's replies.

A request names, table by table, the keys wanted and the options under which they are
read.  A reply has items by table, and perhaps keys the store did not get to, in the form
of a further request.
-/
import ItemStore.Attribute
import ItemStore.Datum

namespace ItemStore

/-- How the keys of a table are read. -/
structure ReadOptions where
  consistentRead : Option Bool := none
  projection : Option String := none
  /-- The names that placeholders in the projection stand for. -/
  projectionNames : Option (Dict String) := none
  /-- Options that are passed through as they are. -/
  extra : Dict Datum := ∅

namespace ReadOptions

instance : EmptyCollection ReadOptions := ⟨{}⟩

def withConsistentRead (o : ReadOptions) (b : Bool) : ReadOptions :=
  { o with consistentRead := some b }

def withProjection (o : ReadOptions) (text : String) (names : Dict String) : ReadOptions :=
  { o with projection := some text, projectionNames := some names }

/-- Passes an option through. -/
def withOption (o : ReadOptions) (name : String) (value : Datum) : ReadOptions :=
  { o with extra := o.extra.insert name value }

end ReadOptions

/-- The keys wanted of one table. -/
structure TableRequest where
  keys : List NativeKey := []
  options : ReadOptions := ∅

/-- The keys wanted, table by table. -/
structure BatchRequest where
  tables : Dict TableRequest := ∅

namespace BatchRequest

instance : EmptyCollection BatchRequest := ⟨{}⟩

/-- The request for keys of one table. -/
def ofTable (name : String) (keys : List NativeKey) (options : ReadOptions) : BatchRequest :=
  { tables := Entries.insert ∅ name { keys, options } }

/-- The number of keys in all tables. -/
def keyCount (r : BatchRequest) : Nat :=
  (r.tables.values.map (·.keys.length)).foldr (· + ·) 0

/-- No key is wanted. -/
def isEmpty (r : BatchRequest) : Bool :=
  r.keyCount = 0

@[simp] theorem keyCount_ofTable (table : String) (keys : List NativeKey)
    (options : ReadOptions) : (ofTable table keys options).keyCount = keys.length := rfl

end BatchRequest

/-- The store's reply to a request. -/
structure BatchResponse where
  items : Dict (List NativeItem) := ∅
  /-- The keys that were not looked up. -/
  unprocessed : Option (Dict TableRequest) := none

namespace BatchResponse

instance : EmptyCollection BatchResponse := ⟨{}⟩

/-- The items of one table. -/
def itemsFor (r : BatchResponse) (table : String) : List NativeItem :=
  (r.items.find? table).getD []

/-- The request for what was not looked up, if a key was left. -/
def next? (r : BatchResponse) : Option BatchRequest :=
  (r.unprocessed.map BatchRequest.mk).filter fun next => !next.isEmpty

def hasUnprocessed (r : BatchResponse) : Bool :=
  r.next?.isSome

end BatchResponse

end ItemStore
