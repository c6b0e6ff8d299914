/-
Reading an instant.

The text is a date, a separator, a time of day and an offset from UTC, as RFC 3339 writes
them.  The reader is lenient where no two readings are possible: blanks may stand before a
number, before a mark and at the end, a number may have fewer digits than its field, a
year may be longer when it has a sign, digits beyond the ninth after the point are
dropped, and the offset may be written without a colon or as a word.

A time with second 60 is a leap second whatever the minute, and a date that the calendar
does not have is refused, before and after the offset is taken off.
-/
import ItemStore.Instant.Basic
import ItemStore.Decimal.Numeral
import ItemStore.Text.Blank

namespace ItemStore.Instant

/-- A step of the reader: what it reads, and the rest. -/
abbrev Step (α : Type) := List Char → Option (α × List Char)

/-- Passes over blanks. -/
def skipBlanks (cs : List Char) : List Char :=
  cs.dropWhile Text.isBlank

/-- A number of at least one digit, of which at most `width` are read. -/
def number (width : Nat) : Step Nat := fun cs =>
  let digits := (cs.take width).takeWhile Char.isDigit
  if digits.isEmpty then none else some (Decimal.ofDigits digits, cs.drop digits.length)

/-- A field of at most two digits inside its limits. -/
def field (low high : Nat) : Step Nat := fun cs => do
  let (n, cs) ← number 2 (skipBlanks cs)
  guard (low ≤ n && n ≤ high)
  return (n, cs)

/-- A year: at most four digits, or any number of them after a sign. -/
def year : Step Int := fun cs =>
  match skipBlanks cs with
  | '-' :: cs => (number cs.length cs).map fun (n, cs) => (-(n : Int), cs)
  | '+' :: cs => (number cs.length cs).map fun (n, cs) => ((n : Int), cs)
  | cs => (number 4 cs).map fun (n, cs) => ((n : Int), cs)

/-- A mark, after any blanks. -/
def mark (c : Char) : Step Unit := fun cs =>
  match skipBlanks cs with
  | d :: cs => if c = d then some ((), cs) else none
  | [] => none

/-- The nanoseconds after the point, if there is one. -/
def places : Step Nat
  | '.' :: cs =>
    let digits := cs.takeWhile Char.isDigit
    if digits.isEmpty then none
    else
      let kept := digits.take 9
      some (Decimal.ofDigits kept * Nat.pow 10 (9 - kept.length), cs.drop digits.length)
  | cs => some (0, cs)

/-- Two digits and nothing less. -/
def twoDigits : Step Nat
  | a :: b :: cs =>
    if a.isDigit && b.isDigit then some (Decimal.ofDigits [a, b], cs) else none
  | _ => none

/-- The sign of an offset; the typographic minus counts as one. -/
def offsetSign : Step Int
  | '+' :: cs => some (1, cs)
  | '-' :: cs => some (-1, cs)
  | '\u2212' :: cs => some (-1, cs)
  | _ => none

/-- The offset from UTC in seconds: a word, or signed hours and minutes. -/
def offset : Step Int := fun cs =>
  if (cs.take 3).map Char.toUpper = ['U', 'T', 'C'] then some (0, cs.drop 3)
  else match cs with
    | 'Z' :: cs => some (0, cs)
    | 'z' :: cs => some (0, cs)
    | cs => do
      let (sign, cs) ← offsetSign cs
      let (hours, cs) ← twoDigits cs
      let (minutes, cs) ← twoDigits (cs.dropWhile fun c => c = ':' || Text.isBlank c)
      guard (hours < 24 && minutes < 60)
      return (sign * (hours * 3600 + minutes * 60), cs)

/-- The years an instant can lie in. -/
def yearInRange (y : Int) : Bool :=
  -262143 ≤ y && y ≤ 262142

/-- Reads an instant that makes up the whole of a text. -/
def ofChars? (cs : List Char) : Option Instant := do
  let (year, cs) ← year cs
  let ((), cs) ← mark '-' cs
  let (month, cs) ← field 1 12 cs
  let ((), cs) ← mark '-' cs
  let (day, cs) ← field 1 31 cs
  let cs ← match cs with
    | c :: cs => if c = 'T' || c = 't' || c = ' ' then some cs else none
    | [] => none
  let (hour, cs) ← field 0 23 cs
  let ((), cs) ← mark ':' cs
  let (minute, cs) ← field 0 59 cs
  let ((), cs) ← mark ':' cs
  let (second, cs) ← field 0 60 cs
  let (nanos, cs) ← places cs
  let (offset, cs) ← offset (skipBlanks cs)
  guard (skipBlanks cs).isEmpty
  let date : CalendarDay := ⟨year, month, day⟩
  guard (yearInRange year && date.isValid)
  let leap := second = 60
  let seconds := date.toDays * 86400 + (hour * 3600 + minute * 60 : Nat)
    + (if leap then 59 else second) - offset
  let t ← ofUnix? seconds (if leap then 1000000000 + nanos else nanos)
  guard (yearInRange t.day.year)
  return t

end ItemStore.Instant
