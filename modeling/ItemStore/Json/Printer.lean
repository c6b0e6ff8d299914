/-
Writing JSON.

The text has no white space, and only ASCII: every character beyond it is written as an
escape, or as two where it needs a surrogate pair.
-/
import ItemStore.Json.Basic
import ItemStore.Decimal.Shortest

namespace ItemStore.Json

/-- A code unit of sixteen bits as an escape. -/
def escapeUnit (n : Nat) : List Char :=
  let digits := Nat.toDigits 16 n
  ['\\', 'u'] ++ .replicate (4 - digits.length) '0' ++ digits

/-- A code point between quotes. -/
def printCode (n : Nat) : List Char :=
  if n = '"'.toNat then ['\\', '"']
  else if n = '\\'.toNat then ['\\', '\\']
  else if 32 ≤ n && n < 127 then [.ofNat n]
  else if n < 0x10000 then escapeUnit n
  else escapeUnit (0xd800 + (n - 0x10000) / 1024) ++ escapeUnit (0xdc00 + (n - 0x10000) % 1024)

/-- The code points of a text. -/
def Text.codes : Text → List Nat
  | .plain s => s.toList.map Char.toNat
  | .broken codes _ => codes

def Text.print (t : Text) : List Char :=
  '"' :: t.codes.flatMap printCode ++ ['"']

/-- A number; a double that is none, or infinite, has no text of its own. -/
def Number.print : Number → List Char
  | .integer n => (toString n).toList
  | .double x =>
    if x.isNaN || x.isInf then "null".toList
    else
      let digits := (Decimal.ofFloat x).toList
      if digits.contains '.' then digits else digits ++ ['.', '0']
  | .outOfRange => "null".toList

/-- Texts with commas between them. -/
def commaSeparated : List (List Char) → List Char
  | [] => []
  | [t] => t
  | t :: ts => t ++ ',' :: commaSeparated ts

mutual

/-- The text of a value. -/
def printChars : Json → List Char
  | .null => "null".toList
  | .bool true => "true".toList
  | .bool false => "false".toList
  | .number n => n.print
  | .text t => t.print
  | .list items => '[' :: commaSeparated (printItems items) ++ [']']
  | .object members => '\x7b' :: commaSeparated (printMembers members) ++ ['\x7d']
  | .tooDeep j => printChars j

def printItems : List Json → List (List Char)
  | [] => []
  | j :: js => printChars j :: printItems js

def printMembers : List (Text × Json) → List (List Char)
  | [] => []
  | (k, j) :: rest => (k.print ++ ':' :: printChars j) :: printMembers rest

end

def print (j : Json) : String :=
  .ofList (printChars j)

end ItemStore.Json
