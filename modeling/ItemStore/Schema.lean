/-
Table schemas: which attributes make up the key, and what type attributes are declared to
have.  Attributes need no declaration.
-/
import ItemStore.Dict

namespace ItemStore

/-- The declared type of an attribute. -/
inductive Datatype
  | string | number | binary | boolean | date
  | stringSet | numberSet | binarySet
  | list | map
  deriving DecidableEq, Repr

namespace Datatype

def all : List Datatype :=
  [string, number, binary, boolean, date, stringSet, numberSet, binarySet, list, map]

/-- The name of a datatype, in messages and on the wire. -/
def name : Datatype → String
  | string => "String"
  | number => "Number"
  | binary => "Binary"
  | boolean => "Boolean"
  | date => "Date"
  | stringSet => "StringSet"
  | numberSet => "NumberSet"
  | binarySet => "BinarySet"
  | list => "List"
  | map => "Map"

def isSet : Datatype → Bool
  | stringSet | numberSet | binarySet => true
  | _ => false

end Datatype

/-- The keys of a table and the declared types of its attributes. -/
structure Schema where
  hashKey : String
  rangeKey : Option String := none
  datatypes : Dict Datatype := ∅
  deriving DecidableEq

namespace Schema

/-- A table whose key is one attribute. -/
def ofHashKey (name : String) (type : Datatype) : Schema :=
  { hashKey := name, datatypes := Entries.insert ∅ name type }

/-- Declares an attribute and makes it the range key. -/
def withRangeKey (s : Schema) (name : String) (type : Datatype) : Schema :=
  { s with rangeKey := some name, datatypes := s.datatypes.insert name type }

/-- Declares an attribute. -/
def withAttribute (s : Schema) (name : String) (type : Datatype) : Schema :=
  { s with datatypes := s.datatypes.insert name type }

/-- The attribute is part of the key. -/
def isKey (s : Schema) (name : String) : Bool :=
  s.hashKey == name || s.rangeKey == some name

/-- The declared type of an attribute, if it is declared. -/
def datatype? (s : Schema) (name : String) : Option Datatype :=
  s.datatypes.find? name

end Schema

end ItemStore
