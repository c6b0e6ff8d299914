/-
Following one request to its end.

The store may answer a request in part and name the keys it did not get to; those are the
request of the next round.  A round ends with a successful reply, and every failure in
between repeats its request as far as the policy allows, each round with a fresh count of
retries.  A reply that leaves more keys than the round asked for can not be trusted, and
ends the matter before its items are kept.

`Pager.receive` is the decision after a reply.  `Pager.run` is the loop around it.
-/
import ItemStore.Batch.Transport
import ItemStore.Retry

namespace ItemStore

/-- One request on its way through its rounds. -/
structure Pager where
  /-- The request of the current round. -/
  request : BatchRequest
  /-- The retries of the current round so far. -/
  retries : UInt32 := 0
  /-- The items of the rounds before. -/
  items : List NativeItem := []

namespace Pager

/-- Nothing is left to ask for. -/
def isDone (p : Pager) : Bool :=
  p.request.isEmpty

/-- What a reply leads to: the pager after it and the wait before its next call, or the
error that ends the matter. -/
def receive (policy : RetryPolicy) (table : String) (p : Pager) :
    Except Error BatchResponse → Except Error (Pager × Nat)
  | .ok response =>
    let next := response.next?.getD ∅
    if p.request.keyCount < next.keyCount then
      .error (.grown next.keyCount p.request.keyCount)
    else .ok ({ request := next, items := p.items ++ response.itemsFor table }, 0)
  | .error e =>
    (policy.afterFailure p.retries e).map fun wait => ({ p with retries := p.retries + 1 }, wait)

/-- Runs a request to its end, in at most `fuel` calls; without an answer it needed more. -/
def run {σ : Type} (t : Transport σ) (policy : RetryPolicy) (table : String) :
    (fuel : Nat) → Session σ → Pager → Session σ × Option (Except Error (List NativeItem))
  | 0, s, p => (s, if p.isDone then some (.ok p.items) else none)
  | fuel + 1, s, p =>
    if p.isDone then (s, some (.ok p.items))
    else
      let (s, reply) := s.call t p.request
      match p.receive policy table reply with
      | .ok (p, wait) => run t policy table fuel (s.wait wait) p
      | .error e => (s, some (.error e))

end Pager

end ItemStore
