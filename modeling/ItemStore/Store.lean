/-
A store in memory.

It answers requests from lists of items, the first item that has the attributes of a key
being the one the key means.  It can be told to look up only so many keys in a call, to
take time over each call, and to fail the next calls in given ways.  It counts how many
calls are open at once.
-/
import ItemStore.Batch.Transport
import ItemStore.Encoding

namespace ItemStore

/-- Items by table, and the behaviour of the store. -/
structure Store where
  tables : Dict (List NativeItem) := ∅
  /-- What the next calls fail with. -/
  failures : List Error := []
  /-- The requests received, in order. -/
  requests : List BatchRequest := []
  /-- The most keys looked up in one call. -/
  pageLimit : Option Nat := none
  /-- How long a call takes, in milliseconds. -/
  latency : Nat := 0
  /-- The calls that are open. -/
  inFlight : Nat := 0
  /-- The most calls that were open at once. -/
  peak : Nat := 0

namespace Store

/-- Puts an item at the end of a table. -/
def insert (s : Store) (table : String) (item : NativeItem) : Store :=
  { s with tables := s.tables.insert table ((s.tables.find? table).getD [] ++ [item]) }

/-- Encodes items under a schema and puts them into a table one after another, up to the
first that can not be encoded. -/
def load (s : Store) (table : String) (schema : Schema) : List Item → Store × Except Error Unit
  | [] => (s, .ok ())
  | item :: items =>
    match Encoding.encodeItem schema item with
    | .ok native => (s.insert table native).load table schema items
    | .error e => (s, .error e)

/-- Has one more call fail. -/
def failNext (s : Store) (e : Error) : Store :=
  { s with failures := s.failures ++ [e] }

/-- The item has every attribute of the key. -/
def matchesKey (key : NativeKey) (item : NativeItem) : Bool :=
  key.toList.all fun (name, a) => item.find? name == some a

/-- The item that a key means. -/
def lookup (s : Store) (table : String) (key : NativeKey) : Option NativeItem :=
  ((s.tables.find? table).getD []).find? (matchesKey key)

/-- What is left of a budget, if there is one, when a number is taken from it. -/
def drawn (budget : Option Nat) (n : Nat) : Option Nat :=
  budget.map (· - n)

/-- Answers a request table by table, all tables drawing on one budget of keys. -/
def answerTables (s : Store) :
    (budget : Option Nat) → List (String × TableRequest) → BatchResponse → BatchResponse
  | _, [], response => response
  | budget, (table, wanted) :: rest, response =>
    let take := match budget with
      | some limit => min wanted.keys.length limit
      | none => wanted.keys.length
    let found := (wanted.keys.take take).filterMap (s.lookup table)
    let left := wanted.keys.drop take
    s.answerTables (drawn budget take) rest {
      items := response.items.insert table found
      unprocessed :=
        if left.isEmpty then response.unprocessed
        else some ((response.unprocessed.getD ∅).insert table { wanted with keys := left }) }

/-- The reply to a request. -/
def answer (s : Store) (r : BatchRequest) : BatchResponse :=
  s.answerTables s.pageLimit r.tables.toList ∅

/-- A request comes in. -/
def receive (s : Store) (r : BatchRequest) : Store :=
  { s with
    requests := s.requests ++ [r]
    inFlight := s.inFlight + 1
    peak := max s.peak (s.inFlight + 1) }

/-- A reply goes out: a failure if one is due, else the answer. -/
def reply (s : Store) (r : BatchRequest) : Store × Except Error BatchResponse :=
  let closed := { s with inFlight := s.inFlight - 1 }
  match s.failures with
  | e :: failures => ({ closed with failures }, .error e)
  | [] => (closed, .ok (s.answer r))

/-- The store as seen by a fetch. -/
def transport : Transport Store where
  send s r := (s.receive r, s.latency)
  reply := reply
  backlog s := s.failures.length

end Store

end ItemStore
