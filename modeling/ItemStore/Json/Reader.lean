/-
Reading JSON.

The grammar is the strict one: no comments, no trailing commas, no leading zeros, white
space only from among four characters, and nothing after the value.  Containers nest to a
depth of 127; the ones inside are read and marked as too deep.

An integer that fits 64 bits, signed or unsigned, is kept; any other number becomes a
double in the quickest way that keeps all its digits apart: the digits that fit an unsigned
word of 64 bits, scaled by one power of ten in double arithmetic.  Minus zero is a double.
-/
import ItemStore.Json.Basic

namespace ItemStore.Json

/-- A step of the reader: what it reads, and the rest. -/
abbrev Step (α : Type) := List Char → Option (α × List Char)

/-- Passes over white space. -/
def skipSpace (cs : List Char) : List Char :=
  cs.dropWhile fun c => c == ' ' || c == '\n' || c == '\t' || c == '\r'

/-! ### Texts -/

/-- The value of a hexadecimal digit. -/
def hexValue? (c : Char) : Option Nat :=
  if c.isDigit then some (c.toNat - '0'.toNat)
  else if 'a' ≤ c && c ≤ 'f' then some (c.toNat - 'a'.toNat + 10)
  else if 'A' ≤ c && c ≤ 'F' then some (c.toNat - 'A'.toNat + 10)
  else none

/-- The value of four hexadecimal digits. -/
def hex4? (a b c d : Char) : Option Nat := do
  return (((← hexValue? a) * 16 + (← hexValue? b)) * 16 + (← hexValue? c)) * 16 + (← hexValue? d)

/-- The character that a letter after a backslash stands for. -/
def escaped? : Char → Option Char
  | '"' => some '"'
  | '\\' => some '\\'
  | '/' => some '/'
  | 'b' => some '\x08'
  | 'f' => some '\x0c'
  | 'n' => some '\n'
  | 'r' => some '\r'
  | 't' => some '\t'
  | _ => none

/-- Reads to the closing quote: code points, each with whether it stood there as a bare
control character. -/
def codes : Step (List (Nat × Bool))
  | '"' :: cs => some ([], cs)
  | '\\' :: 'u' :: a :: b :: c :: d :: cs => do
    let n ← hex4? a b c d
    let (rest, cs) ← codes cs
    return ((n, false) :: rest, cs)
  | '\\' :: c :: cs => do
    let c ← escaped? c
    let (rest, cs) ← codes cs
    return ((c.toNat, false) :: rest, cs)
  | c :: cs => do
    let (rest, cs) ← codes cs
    return ((c.toNat, c.toNat < 32) :: rest, cs)
  | [] => none

def isHighSurrogate (n : Nat) : Bool := 0xd800 ≤ n && n ≤ 0xdbff

def isLowSurrogate (n : Nat) : Bool := 0xdc00 ≤ n && n ≤ 0xdfff

/-- Joins each high surrogate with the low one that follows it. -/
def joinSurrogates : List Nat → List Nat
  | [] => []
  | [n] => [n]
  | h :: l :: rest =>
    if isHighSurrogate h && isLowSurrogate l then
      ((h - 0xd800) * 1024 + (l - 0xdc00) + 0x10000) :: joinSurrogates rest
    else h :: joinSurrogates (l :: rest)

/-- The text of code points, if it is one. -/
def Text.ofCodes (codes : List (Nat × Bool)) : Text :=
  let joined := joinSurrogates (codes.map (·.1))
  let bare := codes.any (·.2)
  if bare || joined.any fun n => isHighSurrogate n || isLowSurrogate n then .broken joined bare
  else .plain (.ofList (joined.map Char.ofNat))

/-- Reads a text after its opening quote. -/
def readText : Step Text := fun cs =>
  (codes cs).map fun (codes, cs) => (.ofCodes codes, cs)

/-! ### Numbers -/

/-- The digits of a number that fit an unsigned word, and how many did not or stand after the
point: the value is `significand * 10 ^ exponent`. -/
structure Digits where
  significand : Nat
  exponent : Int

/-- Takes in one digit, if it fits. -/
def Digits.push? (d : Digits) (c : Char) : Option Nat :=
  let n := d.significand * 10 + (c.toNat - '0'.toNat)
  if n < UInt64.size then some n else none

/-- The digits before the point; those after the first that does not fit only count. -/
def Digits.takeWhole (d : Digits) : List Char → Digits
  | [] => d
  | c :: cs =>
    match d.push? c with
    | some n => takeWhole { d with significand := n } cs
    | none => { d with exponent := d.exponent + (c :: cs).length }

/-- The digits after the point; those after the first that does not fit are dropped. -/
def Digits.takeFraction (d : Digits) : List Char → Digits
  | [] => d
  | c :: cs =>
    match d.push? c with
    | some n => takeFraction { significand := n, exponent := d.exponent - 1 } cs
    | none => d

/-- Scales by a power of ten: at once if it is a double, else in steps downwards. -/
def scale : (fuel : Nat) → Float → Int → Number
  | 0, _, _ => .double 0.0
  | fuel + 1, x, e =>
    if e.natAbs ≤ 308 then
      let power := Float.ofScientific 1 false e.natAbs
      if e < 0 then .double (x / power)
      else if (x * power).isInf then .outOfRange else .double (x * power)
    else if x == 0.0 then .double x
    else if 0 ≤ e then .outOfRange
    else scale fuel (x / Float.ofScientific 1 false 308) (e + 308)

/-- The double of digits with a further exponent; what is divided by `1e308` three times is
zero. -/
def Digits.toNumber (d : Digits) (exponent : Int) : Number :=
  if 2147483648 ≤ exponent.natAbs then
    if 0 < d.significand && 0 < exponent then .outOfRange else .double 0.0
  else scale 4 d.significand.toUInt64.toFloat (d.exponent + exponent)

def Number.negate : Number → Number
  | .double x => .double (-x)
  | n => n

/-- The value of a row of digits. -/
def ofDigits (cs : List Char) : Nat :=
  cs.foldl (fun n c => 10 * n + (c.toNat - '0'.toNat)) 0

/-- Reads the exponent, if there is one; the answer is none where there is not. -/
def readExponent : Step (Option Int)
  | c :: cs =>
    if c = 'e' ∨ c = 'E' then
      let (negative, cs) := match cs with
        | '-' :: cs => (true, cs)
        | '+' :: cs => (false, cs)
        | cs => (false, cs)
      let digits := cs.takeWhile Char.isDigit
      if digits.isEmpty then none
      else
        let n : Int := ofDigits digits
        some (some (if negative then -n else n), cs.drop digits.length)
    else some (none, c :: cs)
  | [] => some (none, [])

/-- Reads the digits after the point, if there is one. -/
def readFraction : Step (Option (List Char))
  | '.' :: cs =>
    let digits := cs.takeWhile Char.isDigit
    if digits.isEmpty then none else some (some digits, cs.drop digits.length)
  | cs => some (none, cs)

/-- A number without point and exponent: an integer if it fits. -/
def ofWhole (negative : Bool) (digits : List Char) : Number :=
  let n := ofDigits digits
  if negative then
    if 0 < n && n ≤ 9223372036854775808 then .integer (-n)
    else ((Digits.takeWhole ⟨0, 0⟩ digits).toNumber 0).negate
  else
    if n < UInt64.size then .integer n else (Digits.takeWhole ⟨0, 0⟩ digits).toNumber 0

/-- Reads a number. -/
def readNumber : Step Number := fun cs => do
  let (negative, cs) := match cs with
    | '-' :: cs => (true, cs)
    | cs => (false, cs)
  let whole := cs.takeWhile Char.isDigit
  guard (!whole.isEmpty && (whole.length = 1 || whole.head? ≠ some '0'))
  let (fraction, cs) ← readFraction (cs.drop whole.length)
  let (exponent, cs) ← readExponent cs
  match fraction, exponent with
  | none, none => return (ofWhole negative whole, cs)
  | _, _ =>
    let d := (Digits.takeWhole ⟨0, 0⟩ whole).takeFraction (fraction.getD [])
    let n := d.toNumber (exponent.getD 0)
    return (if negative then n.negate else n, cs)

/-! ### Values -/

/-- A container where that many may still be nested. -/
def atDepth : Nat → Json → Json
  | 0, j => .tooDeep j
  | _ + 1, j => j

mutual

/-- Reads a value in which containers nest to a given depth; deeper ones are marked. -/
def readValue (depth : Nat) : (fuel : Nat) → Step Json
  | 0, _ => none
  | fuel + 1, cs =>
    match skipSpace cs with
    | 'n' :: 'u' :: 'l' :: 'l' :: cs => some (.null, cs)
    | 't' :: 'r' :: 'u' :: 'e' :: cs => some (.bool true, cs)
    | 'f' :: 'a' :: 'l' :: 's' :: 'e' :: cs => some (.bool false, cs)
    | '"' :: cs => (readText cs).map fun (t, cs) => (.text t, cs)
    | '[' :: cs =>
      match skipSpace cs with
      | ']' :: cs => some (atDepth depth (.list []), cs)
      | _ => (readItems (depth - 1) fuel cs).map fun (items, cs) =>
        (atDepth depth (.list items), cs)
    | '\x7b' :: cs =>
      match skipSpace cs with
      | '\x7d' :: cs => some (atDepth depth (.object []), cs)
      | _ => (readMembers (depth - 1) fuel cs).map fun (ms, cs) =>
        (atDepth depth (.object ms), cs)
    | cs => (readNumber cs).map fun (n, cs) => (.number n, cs)

/-- Reads the items of a list from the first or the one after a comma. -/
def readItems (depth : Nat) : (fuel : Nat) → Step (List Json)
  | 0, _ => none
  | fuel + 1, cs => do
    let (item, cs) ← readValue depth fuel cs
    match skipSpace cs with
    | ',' :: cs =>
      let (items, cs) ← readItems depth fuel cs
      return (item :: items, cs)
    | ']' :: cs => return ([item], cs)
    | _ => none

/-- Reads the members of an object from the first or the one after a comma. -/
def readMembers (depth : Nat) : (fuel : Nat) → Step (List (Text × Json))
  | 0, _ => none
  | fuel + 1, cs =>
    match skipSpace cs with
    | '"' :: cs => do
      let (key, cs) ← readText cs
      match skipSpace cs with
      | ':' :: cs =>
        let (value, cs) ← readValue depth fuel cs
        match skipSpace cs with
        | ',' :: cs =>
          let (members, cs) ← readMembers depth fuel cs
          return ((key, value) :: members, cs)
        | '\x7d' :: cs => return ([(key, value)], cs)
        | _ => none
      | _ => none
    | _ => none

end

/-- The depth to which containers nest. -/
def maxDepth : Nat := 127

/-- Reads a JSON text.  Every step down or along takes at least one character. -/
def read? (s : String) : Option Json := do
  let cs := s.toList
  let (j, rest) ← readValue maxDepth (cs.length + 1) cs
  guard (skipSpace rest).isEmpty
  return j

end ItemStore.Json
