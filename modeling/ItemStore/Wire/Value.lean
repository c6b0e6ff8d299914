/-
Values, attributes and keys in JSON.
-/
import ItemStore.Attribute
import ItemStore.Instant.Reader
import ItemStore.Wire.Tree

namespace ItemStore.Wire

def ofTexts (members : List String) : Json := .list (members.map .str)

def ofBytes (b : Bytes) : Json := .list (b.map fun x => .nat x.toNat)

/-- A table with its values written by a function of their own. -/
def ofDict {α : Type} (ofValue : α → Json) (d : Dict α) : Json :=
  .ofMembers (d.toList.map fun (k, a) => (k, ofValue a))

/-- Reads an instant. -/
def instant? (j : Json) : Option Instant :=
  (text? j).bind fun s => Instant.ofChars? s.toList

/-! ### Application values -/

def ofValueLeaf : Value.Leaf → Json
  | .null => .str "Null"
  | .bool b => .tagged "Bool" (.bool b)
  | .number s => .tagged "N" (.str s)
  | .text s => .tagged "S" (.str s)
  | .bytes b => .tagged "B" (ofBytes b)
  | .date t => .tagged "Date" (.str t.exact)
  | .textSet members => .tagged "SS" (ofTexts members)
  | .numberSet members => .tagged "NS" (ofTexts members)
  | .byteSet members => .tagged "BS" (.list (members.map ofBytes))

/-- Reads the leaf with a tag and a content. -/
def taggedValueLeaf? (tag : String) (payload : Json) : Option Value.Leaf :=
  match tag with
  | "Bool" => (bool? payload).map .bool
  | "N" => (text? payload).map .number
  | "S" => (text? payload).map .text
  | "B" => (bytes? payload).map .bytes
  | "Date" => (instant? payload).map .date
  | "SS" => (list? text? payload).map .textSet
  | "NS" => (list? text? payload).map .numberSet
  | "BS" => (list? bytes? payload).map .byteSet
  | _ => none

def valueLeaf? (j : Json) : Option Value.Leaf :=
  if nameOf? j = some "Null" then some .null
  else (tagged? j).bind fun (tag, payload) => taggedValueLeaf? tag payload

def ofValue (v : Value) : Json := ofTree ofValueLeaf v

def value? (j : Json) : Option Value := tree? valueLeaf? j

def ofItem (item : Item) : Json := ofDict ofValue item

def item? (j : Json) : Option Item := dict? value? j

def ofKeyRecord (k : KeyRecord) : Json :=
  .ofMembers [("hash", ofValue k.hash), ("range", .option ofValue k.range)]

def keyRecord? (j : Json) : Option KeyRecord := do
  let fields ← fields? ["hash", "range"] j
  return {
    hash := ← required fields "hash" value?
    range := ← optional fields "range" value? }

/-! ### Native attributes -/

def ofAttributeLeaf : Attribute.Leaf → Json
  | .text s => .tagged "S" (.str s)
  | .number s => .tagged "N" (.str s)
  | .bytes b => .tagged "B" (ofBytes b)
  | .bool b => .tagged "BOOL" (.bool b)
  | .null flag => .tagged "NULL" (.bool flag)
  | .textSet members => .tagged "SS" (ofTexts members)
  | .numberSet members => .tagged "NS" (ofTexts members)
  | .byteSet members => .tagged "BS" (.list (members.map ofBytes))

/-- Reads the leaf with a tag and a content. -/
def taggedAttributeLeaf? (tag : String) (payload : Json) : Option Attribute.Leaf :=
  match tag with
  | "S" => (text? payload).map .text
  | "N" => (text? payload).map .number
  | "B" => (bytes? payload).map .bytes
  | "BOOL" => (bool? payload).map .bool
  | "NULL" => (bool? payload).map .null
  | "SS" => (list? text? payload).map .textSet
  | "NS" => (list? text? payload).map .numberSet
  | "BS" => (list? bytes? payload).map .byteSet
  | _ => none

def attributeLeaf? (j : Json) : Option Attribute.Leaf :=
  (tagged? j).bind fun (tag, payload) => taggedAttributeLeaf? tag payload

def ofAttribute (a : Attribute) : Json := ofTree ofAttributeLeaf a

def attribute? (j : Json) : Option Attribute := tree? attributeLeaf? j

def ofNativeItem (item : NativeItem) : Json := ofDict ofAttribute item

def nativeItem? (j : Json) : Option NativeItem := dict? attribute? j

end ItemStore.Wire
