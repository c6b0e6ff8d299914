/-
Free-form data, as options that are passed through to the store carry it.
-/
import ItemStore.Tree

namespace ItemStore

/-- What free-form data is made of, lists and records apart. -/
inductive Datum.Leaf
  | null
  | bool (b : Bool)
  | integer (n : Int)
  | double (x : Float)
  | text (s : String)

/-- Data without a declared form. -/
abbrev Datum := Tree Datum.Leaf

end ItemStore
