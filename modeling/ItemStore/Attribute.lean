/-
Native attributes: values in the encoding of the store.

The store knows no dates, and its null carries a truth value that means nothing.  Reading
an attribute back as an application value only renames its leaves, so `decode` is a `map`.
-/
import ItemStore.Value

namespace ItemStore

/-- What a native attribute is made of, lists and records apart. -/
inductive Attribute.Leaf
  | text (s : String)
  | number (text : String)
  | bytes (b : Bytes)
  | bool (b : Bool)
  | null (flag : Bool)
  | textSet (members : List String)
  | numberSet (members : List String)
  | byteSet (members : List Bytes)
  deriving DecidableEq

/-- A value as the store sees it. -/
abbrev Attribute := Tree Attribute.Leaf

/-- An item as the store keeps it. -/
abbrev NativeItem := Dict Attribute

/-- The attributes that pick one item out. -/
abbrev NativeKey := Dict Attribute

namespace Attribute

def asText? : Attribute → Option String
  | .leaf (.text s) => some s
  | _ => none

def asNumber? : Attribute → Option String
  | .leaf (.number s) => some s
  | _ => none

/-- The application's leaf for a native one. -/
def Leaf.decode : Leaf → Value.Leaf
  | .text s => .text s
  | .number s => .number s
  | .bytes b => .bytes b
  | .bool b => .bool b
  | .null _ => .null
  | .textSet members => .textSet members
  | .numberSet members => .numberSet members
  | .byteSet members => .byteSet members

/-- The application value of a native attribute. -/
def decode (a : Attribute) : Value :=
  a.map Leaf.decode

end Attribute

/-- The application's view of a native item. -/
def NativeItem.decode (item : NativeItem) : Item :=
  item.map Attribute.decode

end ItemStore
