/-
Sample users: items and keys to try a table with.
-/
import ItemStore.Value

namespace ItemStore.Sample

/-- The user with a number. -/
def user (n : Nat) : Item :=
  .ofList [
    ("id", .text s!"user{n}"),
    ("name", .text s!"User {n}"),
    ("score", .ofInt n)]

/-- So many users, from a number on. -/
def users (first count : Nat) : List Item :=
  (List.range count).map fun i => user (first + i)

/-- The keys of the first users. -/
def userKeys (count : Nat) : List KeyRecord :=
  (List.range count).map fun n => { hash := .text s!"user{n}" }

end ItemStore.Sample
