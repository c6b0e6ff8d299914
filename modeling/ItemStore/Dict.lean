/-
Tables keyed by text.

A table keeps its keys in increasing order, and the order is part of the type: every
entry carries the proof that its key lies beyond the one before it.  So a table has one
representation only.  Two tables that answer every look-up alike are equal (`ext`), and
equality of tables needs no notion of its own.

The bound is an index and not a predicate on a list of pairs because values may hold
tables themselves: a value type that nests `Entries` is still an inductive type.
-/

namespace ItemStore

/-- The key lies beyond the bound; without a bound every key does. -/
def Beyond (lo : Option String) (key : String) : Prop :=
  ∀ bound, lo = some bound → bound < key

theorem Beyond.of_none {key : String} : Beyond none key := nofun

theorem Beyond.of_lt {bound key : String} (h : bound < key) : Beyond (some bound) key
  | _, rfl => h

theorem Beyond.lt {bound key : String} (h : Beyond (some bound) key) : bound < key :=
  h bound rfl

/-- Entries in increasing order of their keys, all beyond a bound. -/
inductive Entries (α : Type) : Option String → Type
  | nil {lo : Option String} : Entries α lo
  | cons {lo : Option String} (key : String) (beyond : Beyond lo key) (value : α)
      (rest : Entries α (some key)) : Entries α lo

/-- A table from text keys to values. -/
abbrev Dict (α : Type) : Type := Entries α none

namespace Entries

variable {α β : Type}

instance {lo : Option String} : EmptyCollection (Entries α lo) := ⟨.nil⟩

instance {lo : Option String} : Inhabited (Entries α lo) := ⟨.nil⟩

/-- The keys and values in the order of the keys. -/
def toList : {lo : Option String} → Entries α lo → List (String × α)
  | _, .nil => []
  | _, .cons key _ value rest => (key, value) :: rest.toList

/-- The keys in increasing order. -/
def keys {lo : Option String} (d : Entries α lo) : List String :=
  d.toList.map (·.1)

/-- The values in the order of their keys. -/
def values {lo : Option String} (d : Entries α lo) : List α :=
  d.toList.map (·.2)

/-- The number of keys. -/
def size {lo : Option String} (d : Entries α lo) : Nat :=
  d.toList.length

def isEmpty {lo : Option String} : Entries α lo → Bool
  | .nil => true
  | .cons .. => false

/-- The value bound to a key. -/
def find? (k : String) : {lo : Option String} → Entries α lo → Option α
  | _, .nil => none
  | _, .cons key _ value rest => if k = key then some value else rest.find? k

/-- Binds a key, in place of what it was bound to before. -/
def insertBeyond (k : String) (a : α) :
    {lo : Option String} → Beyond lo k → Entries α lo → Entries α lo
  | _, h, .nil => .cons k h a .nil
  | _, h, .cons key beyond value rest =>
    if lt : k < key then .cons k h a (.cons key (.of_lt lt) value rest)
    else if gt : key < k then .cons key beyond value (rest.insertBeyond k a (.of_lt gt))
    else .cons key beyond a rest

/-- Binds a key, in place of what it was bound to before. -/
def insert (d : Dict α) (k : String) (a : α) : Dict α :=
  d.insertBeyond k a .of_none

/-- The table of a list of pairs; of two pairs with one key the later stands. -/
def ofList (pairs : List (String × α)) : Dict α :=
  pairs.foldl (fun d p => d.insert p.1 p.2) .nil

/-- The entries of the second table put into the first, whose values they replace. -/
def union (d e : Dict α) : Dict α :=
  e.toList.foldl (fun d p => d.insert p.1 p.2) d

def map (f : α → β) : {lo : Option String} → Entries α lo → Entries β lo
  | _, .nil => .nil
  | _, .cons key beyond value rest => .cons key beyond (f value) (rest.map f)

/-- Applies a function that can fail to key and value in the order of the keys; the
first failure is the answer. -/
def mapM {ε : Type} (f : String → α → Except ε β) :
    {lo : Option String} → Entries α lo → Except ε (Entries β lo)
  | _, .nil => .ok .nil
  | _, .cons key beyond value rest => do
    let value ← f key value
    let rest ← rest.mapM f
    return .cons key beyond value rest

/-- Equality is decided entry by entry. -/
def decEq [DecidableEq α] :
    {lo : Option String} → (d e : Entries α lo) → Decidable (d = e)
  | _, .nil, .nil => .isTrue rfl
  | _, .nil, .cons .. => .isFalse (by simp)
  | _, .cons .., .nil => .isFalse (by simp)
  | _, .cons k _ a d, .cons k' _ a' d' =>
    if hk : k = k' then by
      subst hk
      exact
        if ha : a = a' then
          match decEq d d' with
          | .isTrue h => .isTrue (by rw [ha, h])
          | .isFalse h => .isFalse (by simp [h])
        else .isFalse (by simp [ha])
    else .isFalse (by simp [hk])

instance [DecidableEq α] {lo : Option String} : DecidableEq (Entries α lo) := decEq

/-! ### Look-up -/

@[simp] theorem find?_nil {lo : Option String} (k : String) :
    (nil : Entries α lo).find? k = none := rfl

/-- Nothing is bound to a key that the bound keeps out. -/
theorem find?_eq_none_of_le {lo : Option String} {k : String} (d : Entries α lo)
    (h : ∀ b, lo = some b → k ≤ b) (bounded : lo ≠ none) : d.find? k = none := by
  induction d with
  | nil => rfl
  | @cons lo key beyond value rest ih =>
    match lo, beyond, bounded with
    | some b, beyond, _ =>
      have hb : k ≤ b := h b rfl
      have hk : ¬ key < k := fun lt =>
        String.not_lt.2 hb (String.lt_trans beyond.lt lt)
      have hne : k ≠ key := fun e => String.not_lt.2 hb (e ▸ beyond.lt)
      rw [find?, if_neg hne]
      exact ih (fun b' e => by cases e; exact String.not_lt.1 hk) (by simp)

theorem find?_insertBeyond {lo : Option String} (d : Entries α lo) (k : String) (a : α)
    (h : Beyond lo k) (k' : String) :
    (d.insertBeyond k a h).find? k' = if k' = k then some a else d.find? k' := by
  induction d with
  | nil => simp [insertBeyond, find?]
  | cons key beyond value rest ih =>
    rw [insertBeyond]
    split
    · simp [find?]
    · split
      · rename_i hlt hgt
        rw [find?, ih, find?]
        by_cases h1 : k' = key
        · subst h1
          have : k' ≠ k := fun e => hlt (e ▸ hgt)
          simp [this]
        · simp [h1]
      · rename_i hlt hgt
        have e : key = k := String.le_antisymm (String.not_lt.1 hlt) (String.not_lt.1 hgt)
        subst e
        simp only [find?]
        split <;> simp_all

@[simp] theorem find?_insert (d : Dict α) (k : String) (a : α) (k' : String) :
    (d.insert k a).find? k' = if k' = k then some a else d.find? k' :=
  find?_insertBeyond d k a .of_none k'

/-- Tables that answer every look-up alike are equal. -/
theorem ext {lo : Option String} {d e : Entries α lo}
    (h : ∀ k, d.find? k = e.find? k) : d = e := by
  induction d with
  | nil =>
    cases e with
    | nil => rfl
    | cons key _ value _ => simpa [find?] using h key
  | @cons lo key beyond value rest ih =>
    cases e with
    | nil => simpa [find?] using h key
    | cons key' beyond' value' rest' =>
      have hkey : key = key' := by
        apply Classical.byContradiction
        intro ne
        have absent : ∀ {a b : String} (x : Entries α (some b)), a < b → x.find? a = none :=
          fun x lt => x.find?_eq_none_of_le
            (fun _ e => by cases e; exact String.not_lt.1 (String.lt_asymm lt)) (by simp)
        by_cases lt : key < key'
        · have := h key
          rw [find?, if_pos rfl, find?, if_neg ne, absent rest' lt] at this
          simp at this
        · have gt : key' < key := by
            apply Classical.byContradiction
            intro ngt
            exact ne (String.le_antisymm (String.not_lt.1 ngt) (String.not_lt.1 lt))
          have := h key'
          rw [find?, if_neg (Ne.symm ne), absent rest gt, find?, if_pos rfl] at this
          simp at this
      subst hkey
      have hvalue : value = value' := by simpa [find?] using h key
      subst hvalue
      have hrest : rest = rest' := by
        refine ih fun k => ?_
        by_cases hk : k = key
        · subst hk
          rw [rest.find?_eq_none_of_le (by simp) (by simp),
            rest'.find?_eq_none_of_le (by simp) (by simp)]
        · simpa [find?, hk] using h k
      rw [hrest]

end Entries

end ItemStore
