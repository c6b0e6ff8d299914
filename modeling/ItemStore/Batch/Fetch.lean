/-
Several buckets in flight.

A fetch keeps buckets that wait to be started, buckets in flight, and the results of those
that are done.  A bucket in flight is a pager together with the time at which it goes on,
either to issue its next call or to take the reply of the one that is out.  One step lets
one bucket go on; the first failure is the result of the whole, and nothing goes on after
it.

Which bucket goes on is a choice of its own: `step` takes any, and `run` always takes the
one that is due first, of several the one that has waited longest.  So a bucket goes on
until it has to wait, what is due at one time goes on in the order in which it began to
wait, and the clock moves only when everything waits.
-/
import ItemStore.Batch.Pager

namespace ItemStore

/-- What a fetch does with its buckets, whose results are lists of `M`. -/
structure FetchPlan (M : Type) where
  table : String
  policy : RetryPolicy
  /-- The most buckets in flight at once. -/
  concurrency : Nat
  /-- Makes the result of a bucket from its items. -/
  build : List NativeItem → Except Error (List M)

/-- A bucket in flight. -/
structure Flight where
  index : Nat
  pager : Pager
  /-- The time at which it goes on. -/
  due : Nat
  /-- Its call is out, and it goes on by taking the reply. -/
  calling : Bool := false

/-- A fetch on its way. -/
structure Fetch (σ M : Type) where
  session : Session σ
  /-- The buckets to be started, in order. -/
  waiting : List (Nat × BatchRequest)
  /-- The buckets in flight, in the order in which they were started or began to wait. -/
  flights : List Flight := []
  /-- The results of the buckets that are done, in the order in which they were. -/
  finished : List (Nat × List M) := []
  failure : Option Error := none

namespace Fetch

variable {σ M : Type}

/-- Starts as many buckets as may be in flight. -/
def launch (plan : FetchPlan M) (s : Fetch σ M) : Fetch σ M :=
  let room := plan.concurrency - s.flights.length
  { s with
    waiting := s.waiting.drop room
    flights := s.flights ++ (s.waiting.take room).map fun (index, request) =>
      { index, pager := { request }, due := s.session.clock } }

/-- A fetch of the given requests, one for each bucket. -/
def start (plan : FetchPlan M) (session : Session σ) (requests : List BatchRequest) :
    Fetch σ M :=
  launch plan { session, waiting := (List.range requests.length).zip requests }

/-- Has a bucket in flight go on after a wait.  One that goes on at once keeps its place; one
that waits comes after all that wait already. -/
def resume (s : Fetch σ M) (f : Flight) (wait : Nat) : Fetch σ M :=
  let f := { f with due := s.session.clock + waitTime wait }
  { s with
    flights :=
      if wait = 0 then s.flights.map fun g => if g.index = f.index then f else g
      else (s.flights.filter fun g => g.index ≠ f.index) ++ [f] }

/-- Lets one bucket in flight go on. -/
def step (plan : FetchPlan M) (t : Transport σ) (s : Fetch σ M) (f : Flight) : Fetch σ M :=
  let session := { s.session with clock := max s.session.clock f.due }
  if f.calling then
    let (session, reply) := session.reply t f.pager.request
    let s := { s with session }
    match f.pager.receive plan.policy plan.table reply with
    | .ok (pager, wait) => s.resume { f with pager, calling := false } wait
    | .error e => { s with failure := some e }
  else if f.pager.isDone then
    let s := { s with session, flights := s.flights.filter fun g => g.index ≠ f.index }
    match plan.build f.pager.items with
    | .ok models => launch plan { s with finished := s.finished ++ [(f.index, models)] }
    | .error e => { s with failure := some e }
  else
    let (session, delay) := session.send t f.pager.request
    { s with session }.resume { f with calling := true } delay

/-- The bucket that is due first, and of several the one that has waited longest. -/
def earliest : List Flight → Option Flight
  | [] => none
  | f :: fs =>
    match earliest fs with
    | some g => if g.due < f.due then some g else some f
    | none => some f

/-- Lets buckets go on in the order in which they are due, in at most `fuel` steps. -/
def run (plan : FetchPlan M) (t : Transport σ) : (fuel : Nat) → Fetch σ M → Fetch σ M
  | 0, s => s
  | fuel + 1, s =>
    if s.failure.isSome then s
    else match earliest s.flights with
      | some f => run plan t fuel (s.step plan t f)
      | none => s

/-- The results in bucket order, whatever was done first. -/
def models (s : Fetch σ M) : List M :=
  (s.finished.mergeSort fun a b => a.1 ≤ b.1).flatMap (·.2)

/-- The result of the whole, if it has ended. -/
def result? (s : Fetch σ M) : Option (Except Error (List M)) :=
  match s.failure with
  | some e => some (.error e)
  | none => if s.flights.isEmpty && s.waiting.isEmpty then some (.ok s.models) else none

end Fetch

end ItemStore
