/-
Instants as text.

There are two forms.  The canonical text, which is what the store sees, always has three
places after the point; what is finer is cut off, so that texts of one length compare as
the instants do.  The exact text has as many places as it needs, in steps of three.
-/
import ItemStore.Instant.Basic

namespace ItemStore.Instant

/-- A number with at least `width` digits. -/
def padded (width n : Nat) : List Char :=
  let digits := Nat.toDigits 10 n
  .replicate (width - digits.length) '0' ++ digits

/-- A year: four digits, and a sign where four digits do not reach or the year is
negative. -/
def yearText (year : Int) : List Char :=
  if 0 ≤ year ∧ year ≤ 9999 then padded 4 year.toNat
  else (if year < 0 then '-' else '+') :: padded 4 year.natAbs

/-- Day and time in UTC, with the given places after the seconds. -/
def textWith (t : Instant) (places : List Char) : String :=
  .ofList <|
    yearText t.day.year ++ '-' :: padded 2 t.day.month ++ '-' :: padded 2 t.day.day ++
    'T' :: padded 2 t.hour ++ ':' :: padded 2 t.minute ++ ':' :: padded 2 t.second ++
    places ++ ['Z']

/-- The canonical text: UTC, to the millisecond. -/
def canonical (t : Instant) : String :=
  t.textWith ('.' :: padded 3 (t.fraction / 1000000))

/-- The exact text: no places, or the least of 3, 6 and 9 that lose nothing. -/
def exact (t : Instant) : String :=
  t.textWith <|
    if t.fraction = 0 then []
    else if t.fraction % 1000000 = 0 then '.' :: padded 3 (t.fraction / 1000000)
    else if t.fraction % 1000 = 0 then '.' :: padded 6 (t.fraction / 1000)
    else '.' :: padded 9 t.fraction

end ItemStore.Instant
