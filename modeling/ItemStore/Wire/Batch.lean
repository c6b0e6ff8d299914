/-
Policies, settings, requests and replies in JSON.

The typed options of a request stand beside those that are passed through, as members of
one object.  A typed option that is not set is left out.
-/
import ItemStore.Batch.Config
import ItemStore.Batch.Request
import ItemStore.Wire.Value

namespace ItemStore.Wire

/-! ### Policies and settings -/

def ofPolicy (p : RetryPolicy) : Json :=
  .ofMembers [
    ("max_attempts", .option (fun n => .nat n.toNat) p.maxRetries),
    ("initial_backoff_ms", .nat p.initialBackoff.toNat),
    ("max_backoff_ms", .nat p.maxBackoff.toNat),
    ("backoff_multiplier", .double p.multiplier)]

def policy? (j : Json) : Option RetryPolicy := do
  let fields ← fields?
    ["max_attempts", "initial_backoff_ms", "max_backoff_ms", "backoff_multiplier"] j
  return {
    maxRetries := (← optional fields "max_attempts" (natBelow? UInt32.size)).map Nat.toUInt32
    initialBackoff := (← required fields "initial_backoff_ms" (natBelow? UInt64.size)).toUInt64
    maxBackoff := (← required fields "max_backoff_ms" (natBelow? UInt64.size)).toUInt64
    multiplier := ← required fields "backoff_multiplier" double? }

def ofConfig (c : BatchConfig) : Json :=
  .ofMembers [
    ("max_batch_size", .nat c.maxBatchSize),
    ("max_concurrency", .option .nat c.maxConcurrency),
    ("retry", ofPolicy c.retry)]

def config? (j : Json) : Option BatchConfig := do
  let fields ← fields? ["max_batch_size", "max_concurrency", "retry"] j
  return {
    maxBatchSize := ← required fields "max_batch_size" (natBelow? UInt64.size)
    maxConcurrency := ← optional fields "max_concurrency" (natBelow? UInt64.size)
    retry := ← required fields "retry" policy? }

/-! ### Options -/

/-- The members for the typed options that are set. -/
def typedOptions (o : ReadOptions) : List (String × Json) :=
  ((o.consistentRead.map fun b => ("ConsistentRead", .bool b)).toList ++
    (o.projection.map fun s => ("ProjectionExpression", .str s)).toList) ++
    (o.projectionNames.map fun d => ("ExpressionAttributeNames", ofDict .str d)).toList

/-- The members for all options. -/
def optionMembers (o : ReadOptions) : List (String × Json) :=
  typedOptions o ++ o.extra.toList.map fun (k, d) => (k, ofDatum d)

def ofOptions (o : ReadOptions) : Json := .ofMembers (optionMembers o)

/-- The names of the typed options. -/
def typedOptionNames : List String :=
  ["ConsistentRead", "ProjectionExpression", "ExpressionAttributeNames"]

/-- Splits members by whether their name is one of those given; a text that is none is no
name. -/
def splitMembers (names : List String) : List (Json.Text × Json) →
    Option (List (Json.Text × Json) × List (Json.Text × Json))
  | [] => some ([], [])
  | (.plain k, j) :: rest => do
    let (known, others) ← splitMembers names rest
    return if names.contains k then ((.plain k, j) :: known, others)
      else (known, (.plain k, j) :: others)
  | (.broken .., _) :: _ => none

/-- Reads options from the members of an object. -/
def optionsOfMembers? (members : List (Json.Text × Json)) : Option ReadOptions := do
  let (known, others) ← splitMembers typedOptionNames members
  let fields ← knownMembers typedOptionNames known ∅
  return {
    consistentRead := ← optional fields "ConsistentRead" bool?
    projection := ← optional fields "ProjectionExpression" text?
    projectionNames := ← optional fields "ExpressionAttributeNames" (dict? text?)
    extra := .ofList (← others.mapM (member? datum?)) }

def options? : Json → Option ReadOptions
  | .object members => optionsOfMembers? members
  | _ => none

/-! ### Requests and replies -/

def ofTableRequest (r : TableRequest) : Json :=
  .ofMembers (("Keys", .list (r.keys.map ofNativeItem)) :: optionMembers r.options)

def tableRequest? : Json → Option TableRequest
  | .object members => do
    let (known, others) ← splitMembers ["Keys"] members
    let fields ← knownMembers ["Keys"] known ∅
    return {
      keys := ← required fields "Keys" (list? nativeItem?)
      options := ← optionsOfMembers? others }
  | _ => none

def ofRequest (r : BatchRequest) : Json :=
  .ofMembers [("RequestItems", ofDict ofTableRequest r.tables)]

def request? (j : Json) : Option BatchRequest := do
  let fields ← fields? ["RequestItems"] j
  return { tables := ← required fields "RequestItems" (dict? tableRequest?) }

def ofResponse (r : BatchResponse) : Json :=
  .ofMembers <|
    ("Responses", ofDict (fun items => .list (items.map ofNativeItem)) r.items) ::
    (r.unprocessed.map fun u => ("UnprocessedKeys", ofDict ofTableRequest u)).toList

/-- Reads a reply, whose fields may be left out, in a list from the end. -/
def response? (j : Json) : Option BatchResponse := do
  let names := ["Responses", "UnprocessedKeys"]
  let fields ← match j with
    | .list items =>
      if items.length ≤ names.length then some (Entries.ofList (names.zip items)) else none
    | j => fields? names j
  let items ← match fields.find? "Responses" with
    | some j => dict? (list? nativeItem?) j
    | none => some ∅
  return { items, unprocessed := ← optional fields "UnprocessedKeys" (dict? tableRequest?) }

end ItemStore.Wire
