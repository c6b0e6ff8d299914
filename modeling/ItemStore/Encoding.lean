/-
Encoding values for the store.

Without a declared type a value is encoded as what it is: only dates, which the store does
not know, become text, numbers are checked, and sets must not be empty.  A declared type
decides the encoding and admits the values that can stand for it, such as a text of digits
for a number.  A declared set takes one member, a set or a list of members.

What the rest of the library needs of an encoding is `Serializer`; `standard` is the one
described here.
-/
import ItemStore.Attribute
import ItemStore.Error
import ItemStore.Decimal.Numeral
import ItemStore.Text.Blank
import ItemStore.Text.Utf8

namespace ItemStore

/-- How keys and values reach the store, and how its items come back. -/
structure Serializer where
  buildKey : Schema → KeyRecord → Except Error NativeKey
  encode : Option Datatype → Value → Except Error Attribute
  decodeItem : NativeItem → Except Error Item

namespace Encoding

/-- A number text without the blanks around it, if a double can hold its value. -/
def checkedNumber (s : String) : Except Error String :=
  match Decimal.Numeral.ofChars? (Text.trimChars s.toList) with
  | some n => if n.isFinite then .ok (Text.trim s) else .error (.encoding (.notANumber s))
  | none => .error (.encoding (.notANumber s))

/-- The members of a set, which must have some. -/
def nonEmpty {α : Type} (members : List α) : Except Error (List α) :=
  if members.isEmpty then .error (.encoding .emptySet) else .ok members

def mismatch {α : Type} (v : Value) (type : Datatype) : Except Error α :=
  .error (.encoding (.mismatch v type))

/-- A leaf as what it is. -/
def encodeLeaf : Value.Leaf → Except Error Attribute.Leaf
  | .null => .ok (.null true)
  | .bool b => .ok (.bool b)
  | .number s => .number <$> checkedNumber s
  | .text s => .ok (.text s)
  | .bytes b => .ok (.bytes b)
  | .date t => .ok (.text t.canonical)
  | .textSet members => .textSet <$> nonEmpty members
  | .numberSet members => do
    let members ← members.mapM checkedNumber
    .numberSet <$> nonEmpty members
  | .byteSet members => .byteSet <$> nonEmpty members

/-- A value as what it is. -/
def encodeFree (v : Value) : Except Error Attribute :=
  v.mapM encodeLeaf

/-- The members that a value contributes to a set of texts. -/
def textMembers : Value → Except Error (List String)
  | .leaf (.text s) => .ok [s]
  | .leaf (.date t) => .ok [t.canonical]
  | .leaf (.textSet members) => .ok members
  | .list items => items.mapM fun
    | .leaf (.text s) => .ok s
    | other => mismatch other .stringSet
  | other => mismatch other .stringSet

/-- The members that a value contributes to a set of numbers. -/
def numberMembers : Value → Except Error (List String)
  | .leaf (.number s) => do return [← checkedNumber s]
  | .leaf (.numberSet members) => members.mapM checkedNumber
  | .list items => items.mapM fun
    | .leaf (.number s) => checkedNumber s
    | other => mismatch other .numberSet
  | other => mismatch other .numberSet

/-- The members that a value contributes to a set of byte strings. -/
def byteMembers : Value → Except Error (List Bytes)
  | .leaf (.bytes b) => .ok [b]
  | .leaf (.byteSet members) => .ok members
  | .list items => items.mapM fun
    | .leaf (.bytes b) => .ok b
    | other => mismatch other .binarySet
  | other => mismatch other .binarySet

/-- A value as its declared type wants it. -/
def encodeAs (type : Datatype) (v : Value) : Except Error Attribute :=
  match type, v with
  | .string, .leaf (.text s) => .ok (.leaf (.text s))
  | .string, .leaf (.number s) => .ok (.leaf (.text s))
  | .string, .leaf (.date t) => .ok (.leaf (.text t.canonical))
  | .date, .leaf (.date t) => .ok (.leaf (.text t.canonical))
  | .date, .leaf (.text s) => .ok (.leaf (.text s))
  | .date, .leaf (.number s) => do return .leaf (.number (← checkedNumber s))
  | .number, .leaf (.number s) => do return .leaf (.number (← checkedNumber s))
  | .number, .leaf (.text s) => do return .leaf (.number (← checkedNumber s))
  | .binary, .leaf (.bytes b) => .ok (.leaf (.bytes b))
  | .binary, .leaf (.text s) => .ok (.leaf (.bytes (Text.utf8 s)))
  | .boolean, .leaf (.bool b) => .ok (.leaf (.bool b))
  | .stringSet, v => do return .leaf (.textSet (← nonEmpty (← textMembers v)))
  | .numberSet, v => do return .leaf (.numberSet (← nonEmpty (← numberMembers v)))
  | .binarySet, v => do return .leaf (.byteSet (← nonEmpty (← byteMembers v)))
  | .list, .list _ => encodeFree v
  | .map, .record _ => encodeFree v
  | type, v => mismatch v type

/-- A value under its declared type, or as what it is. -/
def encode : Option Datatype → Value → Except Error Attribute
  | some type, v => encodeAs type v
  | none, v => encodeFree v

/-- The key attributes of a record: the hash value, then the range value, which must be
given exactly if the table has a range key. -/
def buildKey (schema : Schema) (key : KeyRecord) : Except Error NativeKey := do
  let hash ← encode (schema.datatype? schema.hashKey) key.hash
  let native : NativeKey := Entries.insert ∅ schema.hashKey hash
  match schema.rangeKey, key.range with
  | some name, some range => return native.insert name (← encode (schema.datatype? name) range)
  | some name, none => throw (.argument (.missingRange name))
  | none, some _ => throw (.argument .unexpectedRange)
  | none, none => return native

/-- All attributes of an item under their declared types. -/
def encodeItem (schema : Schema) (item : Item) : Except Error NativeItem :=
  item.mapM fun name v => encode (schema.datatype? name) v

/-- The datatype-directed encoding. -/
def standard : Serializer where
  buildKey := buildKey
  encode := encode
  decodeItem item := .ok item.decode

end Encoding

end ItemStore
