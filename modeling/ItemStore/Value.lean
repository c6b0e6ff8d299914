/-
Application values.

A value is nested data over the kinds of leaf an application works with.  Numbers are kept
as the text they were written with, so that no precision is lost, and sets are lists: the
order and the repetitions a caller gives are what the store is sent.
-/
import ItemStore.Tree
import ItemStore.Instant.Text
import ItemStore.Decimal.Shortest
import ItemStore.Text.Quoted

namespace ItemStore

abbrev Bytes := List UInt8

/-- What an application value is made of, lists and records apart. -/
inductive Value.Leaf
  | null
  | bool (b : Bool)
  | number (text : String)
  | text (s : String)
  | bytes (b : Bytes)
  | date (t : Instant)
  | textSet (members : List String)
  | numberSet (members : List String)
  | byteSet (members : List Bytes)
  deriving DecidableEq

/-- A value as the application sees it. -/
abbrev Value := Tree Value.Leaf

/-- Attribute names and their values. -/
abbrev Item := Dict Value

/-- What an application knows of the key of one item: the hash value and perhaps a range
value. -/
structure KeyRecord where
  hash : Value
  range : Option Value := none
  deriving DecidableEq

namespace Value

def null : Value := .leaf .null

def text (s : String) : Value := .leaf (.text s)

def bool (b : Bool) : Value := .leaf (.bool b)

def date (t : Instant) : Value := .leaf (.date t)

def bytes (b : Bytes) : Value := .leaf (.bytes b)

def ofInt (n : Int) : Value := .leaf (.number (toString n))

/-- A double as a number: its shortest text. -/
def ofFloat (x : Float) : Value := .leaf (.number (Decimal.ofFloat x))

def asText? : Value → Option String
  | .leaf (.text s) => some s
  | _ => none

def asList? : Value → Option (List Value)
  | .list items => some items
  | _ => none

def isNull : Value → Bool
  | .leaf .null => true
  | _ => false

def isEmptyText : Value → Bool
  | .leaf (.text s) => s.isEmpty
  | _ => false

/-- A date as its canonical text; every other value as it is. -/
def normalized : Value → Value
  | .leaf (.date t) => .leaf (.text t.canonical)
  | v => v

/-! ### The text of a value in messages -/

/-- A leaf as messages show it. -/
def Leaf.describe : Leaf → String
  | .null => "Null"
  | .bool b => "Bool(" ++ (if b then "true" else "false") ++ ")"
  | .number s => "N(" ++ Text.quoted s ++ ")"
  | .text s => "S(" ++ Text.quoted s ++ ")"
  | .bytes b => "B(" ++ Text.quotedBytes b ++ ")"
  | .date t => "Date(" ++ t.exact ++ ")"
  | .textSet members => Text.bracketed "SS([" "])" (members.map Text.quoted)
  | .numberSet members => Text.bracketed "NS([" "])" (members.map Text.quoted)
  | .byteSet members => Text.bracketed "BS([" "])" (members.map Text.quotedBytes)

mutual

/-- A value as messages show it. -/
def describe : Value → String
  | .leaf a => a.describe
  | .list items => Text.bracketed "L([" "])" (describeItems items)
  | .record fields => Text.bracketed "M(\x7b" "\x7d)" (describeFields fields)
termination_by structural v => v

def describeItems : List Value → List String
  | [] => []
  | v :: vs => describe v :: describeItems vs
termination_by structural vs => vs

def describeFields : {lo : Option String} → Entries Value lo → List String
  | _, .nil => []
  | _, .cons key _ v rest => (Text.quoted key ++ ": " ++ describe v) :: describeFields rest
termination_by structural _ fields => fields

end

end Value

end ItemStore
