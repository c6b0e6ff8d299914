/-
Reading values out of JSON.

Every reader takes one form only: there is no turning of texts into numbers, and null is a
value of optional fields alone.  A record may come as an object, in which unknown members
are passed over and a known one must not be repeated, or as a list of all its fields in
their order.  In a table a repeated key takes the place of the earlier one.
-/
import ItemStore.Dict
import ItemStore.Json.Basic
import ItemStore.Text.Utf8

namespace ItemStore.Wire

def text? : Json → Option String
  | .text (.plain s) => some s
  | _ => none

def bool? : Json → Option Bool
  | .bool b => some b
  | _ => none

/-- An integer inside its limits. -/
def integer? (low high : Int) : Json → Option Int
  | .number (.integer n) => if low ≤ n && n ≤ high then some n else none
  | _ => none

/-- A natural number below a bound. -/
def natBelow? (bound : Nat) : Json → Option Nat
  | .number (.integer n) => if 0 ≤ n && n < bound then some n.toNat else none
  | _ => none

/-- A double; an integer stands for the nearest one. -/
def double? : Json → Option Float
  | .number (.double x) => some x
  | .number (.integer n) => some (Float.ofInt n)
  | _ => none

def list? {α : Type} (read : Json → Option α) : Json → Option (List α)
  | .list items => items.mapM read
  | _ => none

/-- A value or null. -/
def nullable? {α : Type} (read : Json → Option α) : Json → Option (Option α)
  | .null => some none
  | j => (read j).map some

/-- The key and the value of a member. -/
def member? {α : Type} (read : Json → Option α) : Json.Text × Json → Option (String × α)
  | (.plain k, j) => (read j).map fun a => (k, a)
  | (.broken .., _) => none

/-- A table; of two members with one key the later stands. -/
def dict? {α : Type} (read : Json → Option α) : Json → Option (Dict α)
  | .object members => (members.mapM (member? read)).map .ofList
  | _ => none

/-- A byte string: its bytes, or a text for its UTF-8 bytes. -/
def bytes? : Json → Option (List UInt8)
  | .list items => items.mapM fun j => (natBelow? 256 j).map Nat.toUInt8
  | .text (.plain s) => some (Text.utf8 s)
  | .text (.broken codes _) => some (codes.flatMap Text.utf8Code)
  | _ => none

/-! ### Records -/

mutual

/-- The value may stand where nobody reads it. -/
def ignorable : Json → Bool
  | .text t => !t.isBare
  | .list items => ignorableItems items
  | .object members => ignorableMembers members
  | .tooDeep j => ignorable j
  | _ => true

def ignorableItems : List Json → Bool
  | [] => true
  | j :: js => ignorable j && ignorableItems js

def ignorableMembers : List (Json.Text × Json) → Bool
  | [] => true
  | (k, j) :: rest => !k.isBare && ignorable j && ignorableMembers rest

end

/-- The members of the given names, each at most once; others are passed over. -/
def knownMembers (names : List String) : List (Json.Text × Json) → Dict Json → Option (Dict Json)
  | [], found => some found
  | (.plain k, j) :: rest, found =>
    if names.contains k then
      if (found.find? k).isSome then none else knownMembers names rest (found.insert k j)
    else if ignorable j then knownMembers names rest found
    else none
  | (.broken .., _) :: _, _ => none

/-- The fields of a record, from an object or from a list of all of them. -/
def fields? (names : List String) : Json → Option (Dict Json)
  | .object members => knownMembers names members ∅
  | .list items => if items.length = names.length then some (.ofList (names.zip items)) else none
  | _ => none

/-- A field that must be there. -/
def required {α : Type} (fields : Dict Json) (name : String) (read : Json → Option α) :
    Option α :=
  (fields.find? name).bind read

/-- A field that may be null or left out. -/
def optional {α : Type} (fields : Dict Json) (name : String) (read : Json → Option α) :
    Option (Option α) :=
  match fields.find? name with
  | some j => nullable? read j
  | none => some none

/-! ### Alternatives -/

/-- The name of an alternative without content: a text, or an object with null. -/
def nameOf? : Json → Option String
  | .text (.plain s) => some s
  | .object [(.plain s, .null)] => some s
  | _ => none

/-- The name of an alternative and its content. -/
def tagged? : Json → Option (String × Json)
  | .object [(.plain tag, payload)] => some (tag, payload)
  | _ => none

/-- The one of some values whose name it is. -/
def named? {α : Type} (all : List α) (name : α → String) (j : Json) : Option α :=
  (nameOf? j).bind fun s => all.find? fun a => name a = s

end ItemStore.Wire
