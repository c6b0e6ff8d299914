/-
Nested data: leaves, lists and records.

Application values, native attributes and free-form options have one shape and differ in
their leaves only.  The shape is written here once, together with the two ways in which
one kind of data becomes another: `map` replaces every leaf, `mapM` does so with a
function that can fail and gives the first failure in reading order, fields in the order
of their names.

The recursion is structural through lists and tables.  Every function is a mutual group
of three, and the lemmas `…Items_eq` and `…Fields_eq` say that the other two members are
the plain `map` and `mapM` of lists and tables, so that proofs need not meet them.
-/
import ItemStore.Dict

namespace ItemStore

/-- Data nested to any depth over leaves of one kind. -/
inductive Tree (α : Type) : Type
  | leaf (a : α)
  | list (items : List (Tree α))
  | record (fields : Entries (Tree α) none)

namespace Tree

variable {α β ε : Type}

instance [Inhabited α] : Inhabited (Tree α) := ⟨.leaf default⟩

mutual

/-- Replaces every leaf. -/
def map (f : α → β) : Tree α → Tree β
  | .leaf a => .leaf (f a)
  | .list items => .list (mapItems f items)
  | .record fields => .record (mapFields f fields)
termination_by structural t => t

def mapItems (f : α → β) : List (Tree α) → List (Tree β)
  | [] => []
  | t :: ts => map f t :: mapItems f ts
termination_by structural ts => ts

def mapFields (f : α → β) :
    {lo : Option String} → Entries (Tree α) lo → Entries (Tree β) lo
  | _, .nil => .nil
  | _, .cons key beyond t rest => .cons key beyond (map f t) (mapFields f rest)
termination_by structural _ fields => fields

end

mutual

/-- Replaces every leaf by a function that can fail; the first failure is the answer. -/
def mapM (f : α → Except ε β) : Tree α → Except ε (Tree β)
  | .leaf a => .leaf <$> f a
  | .list items => .list <$> mapItemsM f items
  | .record fields => .record <$> mapFieldsM f fields
termination_by structural t => t

def mapItemsM (f : α → Except ε β) : List (Tree α) → Except ε (List (Tree β))
  | [] => .ok []
  | t :: ts => do
    let t ← mapM f t
    let ts ← mapItemsM f ts
    return t :: ts
termination_by structural ts => ts

def mapFieldsM (f : α → Except ε β) :
    {lo : Option String} → Entries (Tree α) lo → Except ε (Entries (Tree β) lo)
  | _, .nil => .ok .nil
  | _, .cons key beyond t rest => do
    let t ← mapM f t
    let rest ← mapFieldsM f rest
    return .cons key beyond t rest
termination_by structural _ fields => fields

end

mutual

/-- Equality is decided leaf by leaf. -/
def decEq [DecidableEq α] : (s t : Tree α) → Decidable (s = t)
  | .leaf a, .leaf b =>
    if h : a = b then .isTrue (by rw [h]) else .isFalse (by simp [h])
  | .leaf _, .list _ => .isFalse (by simp)
  | .leaf _, .record _ => .isFalse (by simp)
  | .list _, .leaf _ => .isFalse (by simp)
  | .list items, .list items' =>
    match decEqItems items items' with
    | .isTrue h => .isTrue (by rw [h])
    | .isFalse h => .isFalse (by simp [h])
  | .list _, .record _ => .isFalse (by simp)
  | .record _, .leaf _ => .isFalse (by simp)
  | .record _, .list _ => .isFalse (by simp)
  | .record fields, .record fields' =>
    match decEqFields fields fields' with
    | .isTrue h => .isTrue (by rw [h])
    | .isFalse h => .isFalse (by simp [h])
termination_by structural s => s

def decEqItems [DecidableEq α] : (ss ts : List (Tree α)) → Decidable (ss = ts)
  | [], [] => .isTrue rfl
  | [], _ :: _ => .isFalse (by simp)
  | _ :: _, [] => .isFalse (by simp)
  | s :: ss, t :: ts =>
    match decEq s t, decEqItems ss ts with
    | .isTrue h, .isTrue hs => .isTrue (by rw [h, hs])
    | .isFalse h, _ => .isFalse (by simp [h])
    | _, .isFalse hs => .isFalse (by simp [hs])
termination_by structural ss => ss

def decEqFields [DecidableEq α] :
    {lo : Option String} → (d e : Entries (Tree α) lo) → Decidable (d = e)
  | _, .nil, .nil => .isTrue rfl
  | _, .nil, .cons .. => .isFalse (by simp)
  | _, .cons .., .nil => .isFalse (by simp)
  | _, .cons k _ s d, .cons k' _ t e =>
    if hk : k = k' then by
      subst hk
      exact
        match decEq s t, decEqFields d e with
        | .isTrue h, .isTrue hs => .isTrue (by rw [h, hs])
        | .isFalse h, _ => .isFalse (by simp [h])
        | _, .isFalse hs => .isFalse (by simp [hs])
    else .isFalse (by simp [hk])
termination_by structural _ d => d

end

instance [DecidableEq α] : DecidableEq (Tree α) := decEq

/-! ### The members of the groups are the maps of lists and tables -/

theorem mapItems_eq (f : α → β) (ts : List (Tree α)) : mapItems f ts = ts.map (map f) := by
  induction ts with
  | nil => rfl
  | cons t ts ih => rw [mapItems, ih, List.map_cons]

theorem mapFields_eq (f : α → β) {lo : Option String} (d : Entries (Tree α) lo) :
    mapFields f d = d.map (map f) := by
  induction d with
  | nil => rfl
  | cons key beyond t rest ih => rw [mapFields, ih, Entries.map]

theorem mapItemsM_eq (f : α → Except ε β) (ts : List (Tree α)) :
    mapItemsM f ts = ts.mapM (mapM f) := by
  induction ts with
  | nil => rfl
  | cons t ts ih => simp [mapItemsM, ih, List.mapM_cons]

theorem mapFieldsM_eq (f : α → Except ε β) {lo : Option String} (d : Entries (Tree α) lo) :
    mapFieldsM f d = d.mapM fun _ => mapM f := by
  induction d with
  | nil => rfl
  | cons key beyond t rest ih => rw [mapFieldsM, ih, Entries.mapM]

end Tree

end ItemStore
