/-
Decimal numerals.

A numeral is an optional sign, digits with an optional point among, before or after them,
and an optional exponent.  Number texts are never converted: the store keeps them as they
are written.  What is asked of them is only that a double could hold their value, and
`isFinite` decides that exactly.  The largest finite double is `(2^53 - 1) * 2^971`, and
what rounds to it or below lies under the midpoint `(2^54 - 1) * 2^970` between it and the
next power of two; the midpoint itself rounds up, out of range.
-/

namespace ItemStore.Decimal

/-- A numeral: its value is `digits * 10 ^ exponent`, with a sign. -/
structure Numeral where
  negative : Bool
  digits : Nat
  exponent : Int
  deriving Repr, DecidableEq

/-- The value of a row of digits. -/
def ofDigits (cs : List Char) : Nat :=
  cs.foldl (fun n c => 10 * n + (c.toNat - '0'.toNat)) 0

/-- Takes a sign off the front; the answer is whether it was a minus, and the rest. -/
def takeSign : List Char → Bool × List Char
  | '-' :: cs => (true, cs)
  | '+' :: cs => (false, cs)
  | cs => (false, cs)

/-- The exponent written after the digits, if that is all there is left. -/
def readExponent? : List Char → Option Int
  | [] => some 0
  | c :: cs =>
    if c = 'e' ∨ c = 'E' then
      let (negative, ds) := takeSign cs
      if ds.isEmpty || !ds.all Char.isDigit then none
      else some (if negative then -(ofDigits ds : Int) else ofDigits ds)
    else none

/-- Reads a numeral that makes up the whole of a text. -/
def Numeral.ofChars? (cs : List Char) : Option Numeral :=
  let (negative, cs) := takeSign cs
  let whole := cs.takeWhile Char.isDigit
  let (fraction, cs) := match cs.dropWhile Char.isDigit with
    | '.' :: rest => (rest.takeWhile Char.isDigit, rest.dropWhile Char.isDigit)
    | rest => ([], rest)
  if whole.isEmpty && fraction.isEmpty then none
  else (readExponent? cs).map fun e => {
    negative
    digits := ofDigits (whole ++ fraction)
    exponent := e - fraction.length }

/-- Half a unit beyond the largest finite double. -/
def rangeEnd : Nat := (Nat.pow 2 54 - 1) * Nat.pow 2 970

/-- The position of the leading digit: the value lies below ten to this power, and is at
least a tenth of it. -/
def Numeral.magnitude (n : Numeral) : Int :=
  (Nat.toDigits 10 n.digits).length + n.exponent

/-- A double can hold the value.  The powers are compared only where the magnitude leaves
the answer open. -/
def Numeral.isFinite (n : Numeral) : Bool :=
  if n.digits = 0 || n.magnitude < 309 then true
  else if 309 < n.magnitude then false
  else match n.exponent with
    | .ofNat e => n.digits * Nat.pow 10 e < rangeEnd
    | .negSucc e => n.digits < rangeEnd * Nat.pow 10 (e + 1)

/-- The double nearest to the value. -/
def Numeral.toFloat (n : Numeral) : Float :=
  let x : Float :=
    if n.digits = 0 || n.magnitude < -400 then 0.0
    else if 309 < n.magnitude then 1.0 / 0.0
    else match n.exponent with
      | .ofNat e => Float.ofScientific n.digits false e
      | .negSucc e => Float.ofScientific n.digits true (e + 1)
  if n.negative then -x else x

/-- Reads a double: a numeral, or one of the words for infinity and for no number at all
in any case. -/
def readFloat? (s : String) : Option Float :=
  match Numeral.ofChars? s.toList with
  | some n => some n.toFloat
  | none =>
    let (negative, cs) := takeSign s.toList
    let word := String.ofList (cs.map Char.toLower)
    let signed (x : Float) : Float := if negative then -x else x
    if word = "inf" || word = "infinity" then some (signed (1.0 / 0.0))
    else if word = "nan" then some (signed (0.0 / 0.0))
    else none

end ItemStore.Decimal
