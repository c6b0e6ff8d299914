/-
Repeating a call that failed for a while.

A policy says how many retries there are, if there is a limit at all, and how long to wait
before each: the wait grows by a factor from one retry to the next, up to a maximum.  What
a failure leads to is one pure decision, `RetryPolicy.afterFailure`, which the batch
pipeline shares; `RetryPolicy.run` follows it through a list of outcomes, on a clock that
moves only while the policy waits.
-/
import ItemStore.Clock
import ItemStore.Error

namespace ItemStore

/-- How calls are repeated; times are in milliseconds. -/
structure RetryPolicy where
  /-- The number of retries, the first attempt not counted; without it there is no limit. -/
  maxRetries : Option UInt32
  initialBackoff : UInt64
  maxBackoff : UInt64
  /-- What the wait is multiplied by after each retry. -/
  multiplier : Float

namespace RetryPolicy

/-- Repeats at once, without limit. -/
def immediate : RetryPolicy := ⟨none, 0, 0, 1.0⟩

/-- Never repeats. -/
def noRetry : RetryPolicy := ⟨some 0, 0, 0, 1.0⟩

/-- For short disturbances. -/
def fast : RetryPolicy := ⟨some 3, 10, 100, 2.0⟩

/-- For tables that are throttled. -/
def standard : RetryPolicy := ⟨some 5, 100, 5000, 2.0⟩

instance : Inhabited RetryPolicy := ⟨immediate⟩

/-- Multiplies into `r` the power `x ^ n`, squaring `x` and halving `n` on the way. -/
def powerInto (r x : Float) (n : Nat) : Float :=
  if h : n = 0 then r
  else powerInto (if n % 2 = 1 then r * x else r) (x * x) (n / 2)
termination_by n
decreasing_by omega

/-- The lesser of two doubles; one that is no number is passed over. -/
def lesser (x y : Float) : Float :=
  if x.isNaN then y else if y.isNaN then x else if x < y then x else y

/-- The wait before the retry that follows `retries` earlier ones, in whole milliseconds. -/
def backoff (p : RetryPolicy) (retries : UInt32) : UInt64 :=
  let growth := powerInto 1.0 p.multiplier (min retries.toNat 2147483647)
  (lesser (p.initialBackoff.toFloat * growth) p.maxBackoff.toFloat).toUInt64

/-- Another retry may follow `retries` earlier ones. -/
def allows (p : RetryPolicy) (retries : UInt32) : Bool :=
  match p.maxRetries with
  | some limit => retries < limit
  | none => true

/-- What a failure leads to after `retries` retries: the error to give up with, or the
wait before the next attempt. -/
def afterFailure (p : RetryPolicy) (retries : UInt32) (e : Error) : Except Error Nat :=
  if !e.isRetryable then .error e
  else if p.allows retries then .ok (p.backoff retries).toNat
  else .error (.exhausted (retries + 1) e)

/-- What came of repeating a call. -/
structure Run (α : Type) where
  result : Except Error α
  /-- The time of each call. -/
  calls : List Nat
  /-- The time at the end. -/
  clock : Nat
  /-- The outcomes no call has met. -/
  unused : List (Except Error α)

/-- Follows the policy through the outcomes of successive calls; when they are used up a
call gives `idle`. -/
def run {α : Type} (p : RetryPolicy) (idle : α) :
    (outcomes : List (Except Error α)) → (retries : UInt32) → (clock : Nat) → Run α
  | [], _, clock => ⟨.ok idle, [clock], clock, []⟩
  | .ok a :: rest, _, clock => ⟨.ok a, [clock], clock, rest⟩
  | .error e :: rest, retries, clock =>
    match p.afterFailure retries e with
    | .error e => ⟨.error e, [clock], clock, rest⟩
    | .ok wait =>
      let later := p.run idle rest (retries + 1) (clock + waitTime wait)
      { later with calls := clock :: later.calls }

end RetryPolicy

end ItemStore
