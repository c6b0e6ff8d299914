/-
The shortest text of a double.

A double stands for every real number that rounds to it, an interval around its own value
whose ends belong to it exactly if its significand is even.  Of the numbers in that
interval the text shows one with the fewest digits: a multiple of the largest power of ten
that has a multiple there.  Only the two multiples next to the value need to be looked at,
since the interval surrounds the value.  If both lie inside, the nearer is taken, and of
two equally near ones the larger.

Everything is done in natural numbers: the interval is scaled to quarter units of the
significand, and powers of two and ten are multiplied out to whichever side makes them
positive.
-/

namespace ItemStore.Decimal

/-- The numbers that round to one positive double, in units of `2 ^ exponent`. -/
structure Interval where
  low : Nat
  value : Nat
  high : Nat
  exponent : Int
  /-- The ends belong to the interval. -/
  closed : Bool

/-- The interval of the positive double with the given biased exponent and fraction. -/
def Interval.ofBits (biased fraction : Nat) : Interval :=
  let significand := if biased = 0 then fraction else Nat.pow 2 52 + fraction
  { low := 4 * significand - (if fraction = 0 && 1 < biased then 1 else 2)
    value := 4 * significand
    high := 4 * significand + 2
    exponent := (max biased 1 : Nat) - 1077
    closed := significand % 2 = 0 }

/-- The bound `x` of the interval and the decimal `c * 10 ^ k`, brought to one scale. -/
def Interval.scale (i : Interval) (x c : Nat) (k : Int) : Nat × Nat :=
  (x * Nat.pow 2 i.exponent.toNat * Nat.pow 10 (-k).toNat,
    c * Nat.pow 10 k.toNat * Nat.pow 2 (-i.exponent).toNat)

/-- The decimal `c * 10 ^ k` rounds to the double. -/
def Interval.holds (i : Interval) (c : Nat) (k : Int) : Bool :=
  let (low, c₁) := i.scale i.low c k
  let (high, c₂) := i.scale i.high c k
  if i.closed then low ≤ c₁ && c₂ ≤ high else low < c₁ && c₂ < high

/-- The multiple of `10 ^ k` to show, if one next to the value rounds to the double. -/
def Interval.pick? (i : Interval) (k : Int) : Option Nat :=
  let (value, unit) := i.scale i.value 1 k
  let below := value / unit
  match i.holds below k, i.holds (below + 1) k with
  | true, true => some (if value % unit * 2 < unit then below else below + 1)
  | true, false => some below
  | false, true => some (below + 1)
  | false, false => none

/-- Goes down the powers of ten until one has a multiple in the interval. -/
def Interval.search (i : Interval) : Nat → Int → Nat × Int
  | 0, k => (0, k)
  | fuel + 1, k =>
    match i.pick? k with
    | some c => (c, k)
    | none => i.search fuel (k - 1)

/-- The shortest decimal in the interval, as coefficient and power of ten.  The search
starts above the magnitude of the value; seventeen digits always suffice. -/
def Interval.shortest (i : Interval) : Nat × Int :=
  i.search 24 ((i.exponent + Nat.log2 i.value) * 30103 / 100000 + 2)

/-- The decimal `c * 10 ^ k` without an exponent. -/
def positional (c : Nat) (k : Int) : String :=
  let digits := Nat.toDigits 10 c
  let places := (-k).toNat
  .ofList <|
    if places = 0 then digits ++ .replicate k.toNat '0'
    else if places < digits.length then
      digits.take (digits.length - places) ++ '.' :: digits.drop (digits.length - places)
    else '0' :: '.' :: (.replicate (places - digits.length) '0' ++ digits)

/-- The text of a double: the shortest digits that read back, never an exponent. -/
def ofFloat (x : Float) : String :=
  let bits := x.toBits.toNat
  let biased := bits / Nat.pow 2 52 % Nat.pow 2 11
  let fraction := bits % Nat.pow 2 52
  let sign := if bits / Nat.pow 2 63 = 1 then "-" else ""
  if biased = 2047 then
    if fraction = 0 then sign ++ "inf" else "NaN"
  else if biased = 0 && fraction = 0 then sign ++ "0"
  else
    let (c, k) := (Interval.ofBits biased fraction).shortest
    sign ++ positional c k

end ItemStore.Decimal
