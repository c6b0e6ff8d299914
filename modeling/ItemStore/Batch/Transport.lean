/-
The seam to the store, and what a fetch sees of the world.

A call has two halves with time between them: a request goes out, and later its reply is
taken.  A transport is the two halves as functions of its own state, so that a store whose
replies depend on what other calls have done in the meantime is one too.  A session is
that state together with the clock and the record of the requests that went out.
-/
import ItemStore.Batch.Request
import ItemStore.Clock
import ItemStore.Error

namespace ItemStore

/-- Issues requests against a store whose state is `σ`. -/
structure Transport (σ : Type) where
  /-- Sends a request; the answer is how long its reply takes, in milliseconds. -/
  send : σ → BatchRequest → σ × Nat
  /-- Takes the reply to a request that was sent. -/
  reply : σ → BatchRequest → σ × Except Error BatchResponse
  /-- How many replies are prepared that need not bring a fetch forward. -/
  backlog : σ → Nat

/-- The state of the world between two calls. -/
structure Session (σ : Type) where
  /-- The time, in milliseconds. -/
  clock : Nat := 0
  store : σ
  /-- The requests sent and when, in order. -/
  calls : List (Nat × BatchRequest) := []

namespace Session

variable {σ : Type}

/-- Lets time pass. -/
def wait (s : Session σ) (ms : Nat) : Session σ :=
  { s with clock := s.clock + waitTime ms }

/-- Sends a request; the answer is how long its reply takes. -/
def send (t : Transport σ) (s : Session σ) (r : BatchRequest) : Session σ × Nat :=
  let (store, delay) := t.send s.store r
  ({ s with store, calls := s.calls ++ [(s.clock, r)] }, delay)

/-- Takes a reply. -/
def reply (t : Transport σ) (s : Session σ) (r : BatchRequest) :
    Session σ × Except Error BatchResponse :=
  let (store, reply) := t.reply s.store r
  ({ s with store }, reply)

/-- Sends a request and waits for its reply. -/
def call (t : Transport σ) (s : Session σ) (r : BatchRequest) :
    Session σ × Except Error BatchResponse :=
  let (s, delay) := s.send t r
  (s.wait delay).reply t r

end Session

/-- A transport with prepared replies, which come at once; when they are used up every
reply is empty. -/
def Transport.prepared : Transport (List (Except Error BatchResponse)) where
  send replies _ := (replies, 0)
  reply
    | [], _ => ([], .ok ∅)
    | r :: replies, _ => (replies, r)
  backlog := List.length

end ItemStore
