/-
Schemas, operators and keywords in JSON.
-/
import ItemStore.Expression.Keyword
import ItemStore.Expression.Operator
import ItemStore.Schema
import ItemStore.Wire.Value

namespace ItemStore.Wire

def ofDatatype (type : Datatype) : Json := .str type.name

def datatype? (j : Json) : Option Datatype := named? Datatype.all Datatype.name j

def ofSchema (s : Schema) : Json :=
  .ofMembers [
    ("hash_key", .str s.hashKey),
    ("range_key", .option .str s.rangeKey),
    ("datatypes", ofDict ofDatatype s.datatypes)]

def schema? (j : Json) : Option Schema := do
  let fields ← fields? ["hash_key", "range_key", "datatypes"] j
  return {
    hashKey := ← required fields "hash_key" text?
    rangeKey := ← optional fields "range_key" text?
    datatypes := ← required fields "datatypes" (dict? datatype?) }

/-- The name of an operator on the wire. -/
def operatorName : Operator → String
  | .compare .eq => "Eq"
  | .compare .ne => "Ne"
  | .compare .lt => "Lt"
  | .compare .le => "Le"
  | .compare .gt => "Gt"
  | .compare .ge => "Ge"
  | .between => "Between"
  | .oneOf => "In"
  | .call .attributeExists => "AttributeExists"
  | .call .attributeNotExists => "AttributeNotExists"
  | .call .attributeType => "AttributeType"
  | .call .beginsWith => "BeginsWith"
  | .call .contains => "Contains"
  | .call .notContains => "NotContains"
  | .call .size => "Size"

def ofOperator (op : Operator) : Json := .str (operatorName op)

def operator? (j : Json) : Option Operator := named? Operator.all operatorName j

/-- The name of a keyword on the wire. -/
def keywordName : Keyword → String
  | .set => "Set"
  | .add => "Add"
  | .remove => "Remove"
  | .delete => "Delete"

def ofKeyword (k : Keyword) : Json := .str (keywordName k)

def keyword? (j : Json) : Option Keyword := named? Keyword.all keywordName j

end ItemStore.Wire
