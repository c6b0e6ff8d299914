/-
The Gregorian calendar, in both directions from the year 0.

Days are counted from 1 January 1970.  Inside the calendar a year starts on 1 March, so
that the leap day is the last of its year and the lengths of the months before any given
one follow one formula, `(153 * m + 2) / 5`.  Four hundred years are 146097 days, and the
conversion first splits off whole such cycles; what remains is natural.
-/

namespace ItemStore

/-- A day of the calendar. -/
structure CalendarDay where
  year : Int
  month : Nat
  day : Nat
  deriving Repr, DecidableEq

namespace CalendarDay

/-- The days from 1 March of the year 0 to 1 January 1970. -/
def epoch : Int := 719468

/-- The days in four hundred years. -/
def cycle : Nat := 146097

def isLeap (year : Int) : Bool :=
  year % 4 = 0 && (year % 100 ≠ 0 || year % 400 = 0)

/-- The number of days in a month. -/
def monthLength (year : Int) (month : Nat) : Nat :=
  if month = 2 then if isLeap year then 29 else 28
  else if month = 4 || month = 6 || month = 9 || month = 11 then 30
  else 31

/-- The day is one of the calendar. -/
def isValid (d : CalendarDay) : Bool :=
  1 ≤ d.month && d.month ≤ 12 && 1 ≤ d.day && d.day ≤ monthLength d.year d.month

/-- The days before a month that is `m` months after March. -/
def daysBefore (m : Nat) : Nat :=
  (153 * m + 2) / 5

/-- The days of whole years from the start of a cycle. -/
def daysOfYears (y : Nat) : Nat :=
  365 * y + y / 4 - y / 100

/-- The calendar day that is a number of days after 1 January 1970. -/
def ofDays (n : Int) : CalendarDay :=
  let shifted := n + epoch
  let dayOfCycle := (shifted % cycle).toNat
  let yearOfCycle :=
    (dayOfCycle - dayOfCycle / 1460 + dayOfCycle / 36524 - dayOfCycle / 146096) / 365
  let dayOfYear := dayOfCycle - daysOfYears yearOfCycle
  let m := (5 * dayOfYear + 2) / 153
  { year := shifted / cycle * 400 + yearOfCycle + (if m < 10 then 0 else 1)
    month := if m < 10 then m + 3 else m - 9
    day := dayOfYear - daysBefore m + 1 }

/-- The number of days from 1 January 1970 to a calendar day. -/
def toDays (d : CalendarDay) : Int :=
  let year := if d.month ≤ 2 then d.year - 1 else d.year
  let m := if d.month ≤ 2 then d.month + 9 else d.month - 3
  year / 400 * cycle + daysOfYears (year % 400).toNat + daysBefore m + d.day - 1 - epoch

end CalendarDay

end ItemStore
