/-
Points in time.

An instant is a number of seconds since the start of 1970 in UTC and nanoseconds into
that second.  A leap second has no number of its own: it is the second billion of
nanoseconds after second 59 of a minute, so that instants in order of time are pairs in
lexicographic order.
-/
import ItemStore.Instant.Calendar

namespace ItemStore

/-- A point in time, to the nanosecond. -/
structure Instant where
  seconds : Int
  nanos : Nat
  /-- A second billion of nanoseconds is a leap second, and follows second 59 only. -/
  bounded : nanos < 1000000000 ∨ seconds % 60 = 59 ∧ nanos < 2000000000
  deriving DecidableEq

namespace Instant

/-- The instant at a number of seconds and nanoseconds, if there is one. -/
def ofUnix? (seconds : Int) (nanos : Nat) : Option Instant :=
  if h : nanos < 1000000000 ∨ seconds % 60 = 59 ∧ nanos < 2000000000 then
    some ⟨seconds, nanos, h⟩
  else none

instance : Inhabited Instant := ⟨⟨0, 0, by decide⟩⟩

instance : LE Instant where
  le a b := a.seconds < b.seconds ∨ a.seconds = b.seconds ∧ a.nanos ≤ b.nanos

instance (a b : Instant) : Decidable (a ≤ b) :=
  inferInstanceAs (Decidable (_ ∨ _))

/-- The instant lies in a leap second. -/
def inLeapSecond (t : Instant) : Bool :=
  1000000000 ≤ t.nanos

/-- The day in UTC. -/
def day (t : Instant) : CalendarDay :=
  .ofDays (t.seconds / 86400)

/-- The seconds since midnight, leap second not counted. -/
def secondOfDay (t : Instant) : Nat :=
  (t.seconds % 86400).toNat

def hour (t : Instant) : Nat :=
  t.secondOfDay / 3600

def minute (t : Instant) : Nat :=
  t.secondOfDay / 60 % 60

/-- The second of the minute: 60 in a leap second. -/
def second (t : Instant) : Nat :=
  t.secondOfDay % 60 + (if t.inLeapSecond then 1 else 0)

/-- The nanoseconds into the second, leap second or not. -/
def fraction (t : Instant) : Nat :=
  t.nanos % 1000000000

end Instant

end ItemStore
