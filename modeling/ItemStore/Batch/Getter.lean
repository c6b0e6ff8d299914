/-
Fetching the items of many keys from one table.

The keys are built first, all of them, so that a key that can not be built fails the fetch
before any call.  Then they are split into buckets, each bucket is one request, and the
requests are run side by side.
-/
import ItemStore.Batch.Buckets
import ItemStore.Batch.Config
import ItemStore.Batch.Fetch
import ItemStore.Encoding

namespace ItemStore

/-- A table whose items become values of `M`. -/
structure Table (M : Type) where
  name : String
  schema : Schema
  /-- Makes a value of an item. -/
  build : Item → Except Error M

/-- A table whose items are taken as they are. -/
def Table.plain (name : String) (schema : Schema) : Table Item :=
  { name, schema, build := .ok }

/-- A table whose items must have certain fields. -/
def Table.requiring (name : String) (schema : Schema) (fields : List String) : Table Item :=
  { name, schema
    build := fun item =>
      match fields.find? fun field => (item.find? field).isNone with
      | some field => .error (.encoding (.missingField field))
      | none => .ok item }

/-- What is needed to fetch from a table, the transport aside. -/
structure Getter (M : Type) where
  table : Table M
  serializer : Serializer := Encoding.standard
  config : BatchConfig := {}

namespace Getter

variable {M σ : Type}

/-- Replaces the settings by others that can be used. -/
def withConfig (g : Getter M) (config : BatchConfig) : Except Error (Getter M) :=
  match config.validate with
  | .ok () => .ok { g with config }
  | .error e => .error e

/-- Makes a value of a native item; an error of the table names the table. -/
def buildModel (g : Getter M) (native : NativeItem) : Except Error M := do
  let item ← g.serializer.decodeItem native
  match g.table.build item with
  | .ok m => .ok m
  | .error e => .error (.within ("building item for table " ++ g.table.name) e)

/-- The native keys of records, or the error of the first that has none. -/
def buildKeys (g : Getter M) (records : List KeyRecord) : Except Error (List NativeKey) :=
  records.mapM (g.serializer.buildKey g.table.schema)

/-- The requests for keys, one for each bucket. -/
def requests (g : Getter M) (keys : List NativeKey) (options : ReadOptions) :
    List BatchRequest :=
  (buckets g.config.maxBatchSize keys).map fun bucket =>
    .ofTable g.table.name bucket options

/-- What is done with a number of buckets. -/
def plan (g : Getter M) (bucketCount : Nat) : FetchPlan M where
  table := g.table.name
  policy := g.config.retry
  concurrency := max 1 (g.config.maxConcurrency.getD bucketCount)
  build := List.mapM g.buildModel

theorem plan_concurrency_pos (g : Getter M) (bucketCount : Nat) :
    0 < (g.plan bucketCount).concurrency :=
  Nat.lt_of_lt_of_le Nat.one_pos (Nat.le_max_left _ _)

/-- Fetches the items of the records, in at most `fuel` steps. -/
def getWithin (fuel : Nat) (g : Getter M) (t : Transport σ) (session : Session σ)
    (records : List KeyRecord) (options : ReadOptions) :
    Session σ × Option (Except Error (List M)) :=
  match g.buildKeys records with
  | .error e => (session, some (.error e))
  | .ok keys =>
    let requests := g.requests keys options
    let plan := g.plan requests.length
    let done := (Fetch.start plan session requests).run plan t fuel
    (done.session, done.result?)

/-- Fetches the items of the records.  Every call takes two steps and every bucket one more,
and a call that does not bring its bucket forward uses up a prepared reply. -/
def get (g : Getter M) (t : Transport σ) (session : Session σ) (records : List KeyRecord)
    (options : ReadOptions) : Session σ × Option (Except Error (List M)) :=
  g.getWithin (2 * t.backlog session.store + 3 * records.length + 1) t session records options

/-- Runs one request to its end: the native items of this table. -/
def page (g : Getter M) (t : Transport σ) (session : Session σ) (request : BatchRequest) :
    Session σ × Option (Except Error (List NativeItem)) :=
  Pager.run t g.config.retry g.table.name
    (t.backlog session.store + request.keyCount + 1) session { request }

end Getter

end ItemStore
