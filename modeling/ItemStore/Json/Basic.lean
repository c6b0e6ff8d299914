/-
JSON as it is written.

An object is the list of its members, in order and with repetitions: what a repetition
means depends on what is read from the object.  Three things that may be written have no
value of their own and are kept apart, since they do no harm in a place that nobody reads:
a number beyond the range of doubles, a text with half of a surrogate pair or a bare
control character, and a container inside too many others.
-/

namespace ItemStore

namespace Json

/-- A text between quotes. -/
inductive Text
  | plain (s : String)
  /-- Code points of which some are surrogates, or which stood there as a bare control
  character. -/
  | broken (codes : List Nat) (bare : Bool)

/-- The text has a bare control character. -/
def Text.isBare : Text → Bool
  | .plain _ => false
  | .broken _ bare => bare

/-- A number: integers have at most 64 bits, all others are doubles. -/
inductive Number
  | integer (n : Int)
  | double (x : Float)
  | outOfRange

end Json

/-- A JSON text. -/
inductive Json
  | null
  | bool (b : Bool)
  | number (n : Json.Number)
  | text (t : Json.Text)
  | list (items : List Json)
  | object (members : List (Json.Text × Json))
  /-- A container inside more others than a reader goes into. -/
  | tooDeep (j : Json)

namespace Json

instance : Inhabited Json := ⟨.null⟩

def str (s : String) : Json := .text (.plain s)

def int (n : Int) : Json := .number (.integer n)

def nat (n : Nat) : Json := .number (.integer n)

def double (x : Float) : Json := .number (.double x)

/-- An object with the given members. -/
def ofMembers (members : List (String × Json)) : Json :=
  .object (members.map fun (k, j) => (.plain k, j))

/-- An object with one member. -/
def tagged (tag : String) (payload : Json) : Json :=
  .object [(.plain tag, payload)]

/-- What is in an option, or null. -/
def option {α : Type} (encode : α → Json) : Option α → Json
  | some a => encode a
  | none => .null

end Json

end ItemStore
