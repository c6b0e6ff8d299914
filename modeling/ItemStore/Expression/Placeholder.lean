/-
Placeholders.

An expression never holds the name of an attribute or a value; it holds placeholders, and
two tables say what they stand for.  A placeholder is a sigil, `#` for names and `:` for
values, and the word characters of the name; where that is taken, a number is put after it.

The search for a free placeholder goes through the candidates `base`, `base_2`, `base_3`, …
They are pairwise different, so among one more candidate than there are placeholders in
use at least one is free, and the search looks at no more than that.
-/
import ItemStore.Error
import ItemStore.Text.Word

namespace ItemStore

namespace Placeholder

/-- The candidates for a placeholder in the order they are tried. -/
def candidate (base : String) : Nat → String
  | 0 => base
  | n + 1 => base ++ "_" ++ toString (n + 2)

/-- The first candidate that is free, from number `n` on; after `fuel` candidates that were
not, the next one unseen. -/
def search (free : String → Bool) (base : String) : (fuel n : Nat) → String
  | 0, n => candidate base n
  | fuel + 1, n =>
    if free (candidate base n) then candidate base n else search free base fuel (n + 1)

/-- The placeholder an attribute name has when none is taken. -/
def ofName (name : String) : String :=
  "#" ++ Text.clean name

/-- The placeholder of an attribute name beside those of a table: the first candidate that
stands for nothing yet, or for this very name. -/
def forName (name : String) (names : Dict String) : String :=
  search (fun p => names.find? p == none || names.find? p == some name) (ofName name)
    names.size 0

/-- The placeholder of a value that belongs to a path when none is taken: the path with
underscores for its points. -/
def ofPath (path : String) : String :=
  ":" ++ Text.clean (.ofList (path.toList.map fun c => if c = '.' then '_' else c))

/-- The placeholder of a value beside those in use: the first candidate that is not. -/
def forValue (path : String) (taken : List String) : String :=
  search (fun p => !taken.contains p) (ofPath path) taken.length 0

/-- One placeholder for each of some values of one path; each is in use for the next. -/
def forValues (path : String) {α : Type} : List α → (taken : List String) → List (String × α)
  | [], _ => []
  | v :: vs, taken =>
    let p := forValue path taken
    (p, v) :: forValues path vs (p :: taken)

end Placeholder

/-! ### Attribute paths -/

/-- Cuts a row of characters at every point. -/
def splitPoints : List Char → List (List Char)
  | [] => [[]]
  | c :: cs =>
    if c = '.' then [] :: splitPoints cs
    else match splitPoints cs with
      | segment :: segments => (c :: segment) :: segments
      | [] => [[c]]

/-- The names along a path, which points separate. -/
def pathSegments (path : String) : List String :=
  (splitPoints path.toList).map .ofList

/-- A path in placeholders: its text, and what each placeholder stands for in path order. -/
structure PathPlaceholders where
  text : String
  names : List (String × String)
  deriving DecidableEq

namespace PathPlaceholders

/-- One placeholder for each segment; each is in use for the next. -/
def assign : List String → (names : Dict String) → List (String × String)
  | [], _ => []
  | segment :: segments, names =>
    let p := Placeholder.forName segment names
    (p, segment) :: assign segments (names.insert p segment)

/-- The placeholders of a path beside those of a table.  Every segment must have a word
character, since the sigil alone is no placeholder. -/
def ofPath (path : String) (names : Dict String) : Except Error PathPlaceholders :=
  let segments := pathSegments path
  if segments.any fun s => (Text.clean s).isEmpty then
    .error (.argument (.wordlessPath path))
  else
    let assigned := assign segments names
    .ok { text := ".".intercalate (assigned.map (·.1)), names := assigned }

end PathPlaceholders

end ItemStore
