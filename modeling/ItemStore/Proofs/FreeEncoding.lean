/-
Encoding without a declared type, exactly.

What can be encoded is told by what stands in a value, wherever it stands: a number has to be one
that a double can hold, a set has to have members, and nothing else can go wrong.  What is read
back differs from the value in the texts of its numbers, which lose the blanks around them, and in
its dates, which are texts now.  Both are said of one leaf first (`encodeLeaf_iff`); that
lists and records add nothing is what `Proofs/Tree.lean` proves of them.
-/
import ItemStore.Proofs.Encoding
import ItemStore.Proofs.Numeral

namespace ItemStore

/-! ### What has to hold of a value -/

/-- The text is a decimal numeral, blanks around it apart, and a double can hold its value. -/
def IsNumber (s : String) : Prop :=
  ∃ x, Decimal.Writes (Text.trim s).toList x ∧ Decimal.InRange x

namespace Value

/-- The number texts of a leaf. -/
def Leaf.numbers : Leaf → List String
  | .number s => [s]
  | .numberSet members => members
  | .null | .bool _ | .text _ | .bytes _ | .date _ | .textSet _ | .byteSet _ => []

/-- The number texts anywhere in a value. -/
def numbers (v : Value) : List String :=
  v.leaves.flatMap Leaf.numbers

/-- A set without members. -/
inductive Leaf.IsEmptySet : Leaf → Prop
  | text : IsEmptySet (.textSet [])
  | number : IsEmptySet (.numberSet [])
  | byte : IsEmptySet (.byteSet [])

theorem Leaf.isEmptySet_iff {x : Leaf} :
    x.IsEmptySet ↔ x = .textSet [] ∨ x = .numberSet [] ∨ x = .byteSet [] := by
  constructor
  · intro h
    cases h <;> simp
  · rintro (rfl | rfl | rfl)
    · exact .text
    · exact .number
    · exact .byte

/-- What a leaf is read back as. -/
def Leaf.plain : Leaf → Leaf
  | .number s => .number (Text.trim s)
  | .date t => .text t.canonical
  | .numberSet members => .numberSet (members.map Text.trim)
  | .null => .null
  | .bool b => .bool b
  | .text s => .text s
  | .bytes b => .bytes b
  | .textSet members => .textSet members
  | .byteSet members => .byteSet members

end Value

namespace Encoding

/-- What a leaf is encoded as, if it is. -/
def encoded : Value.Leaf → Attribute.Leaf
  | .null => .null true
  | .bool b => .bool b
  | .number s => .number (Text.trim s)
  | .text s => .text s
  | .bytes b => .bytes b
  | .date t => .text t.canonical
  | .textSet members => .textSet members
  | .numberSet members => .numberSet (members.map Text.trim)
  | .byteSet members => .byteSet members

theorem decode_encoded (x : Value.Leaf) : (encoded x).decode = x.plain := by
  cases x <;> rfl

/-! ### Leaves -/

theorem checkedNumber_iff (s t : String) :
    checkedNumber s = .ok t ↔ IsNumber s ∧ Text.trim s = t := by
  rw [checkedNumber_eq_ok_iff, Decimal.exists_isFinite_iff, IsNumber, Text.toList_trim, and_comm,
    eq_comm]

/-- Members are checked in turn, and none is left out. -/
theorem mapM_checkedNumber_iff {members checked : List String} :
    members.mapM checkedNumber = .ok checked ↔
      (∀ s ∈ members, IsNumber s) ∧ members.map Text.trim = checked :=
  mapM_eq_map_iff checkedNumber_iff

/-- A leaf is taken if its number texts are those of numbers and it is no empty set. -/
def Takes (x : Value.Leaf) : Prop :=
  (∀ s ∈ x.numbers, IsNumber s) ∧ ¬x.IsEmptySet

theorem encodeLeaf_iff (x : Value.Leaf) (b : Attribute.Leaf) :
    encodeLeaf x = .ok b ↔ Takes x ∧ encoded x = b := by
  unfold Takes
  rw [Value.Leaf.isEmptySet_iff]
  cases x with
  | null | bool _ | text _ | bytes _ | date _ =>
      simp [encodeLeaf, encoded, Value.Leaf.numbers]
  | number s =>
      rw [encodeLeaf, map_eq_ok]
      simp [checkedNumber_iff, encoded, Value.Leaf.numbers, and_assoc]
  | textSet members | byteSet members =>
      rw [encodeLeaf, map_eq_ok]
      simp [nonEmpty_eq_ok_iff, encoded, Value.Leaf.numbers, and_assoc]
  | numberSet members =>
      rw [encodeLeaf, bind_eq_ok]
      simp [mapM_checkedNumber_iff, map_eq_ok, nonEmpty_eq_ok_iff, encoded, Value.Leaf.numbers,
        and_assoc]

/-! ### Values -/

theorem takes_leaves_iff {v : Value} :
    (∀ x ∈ v.leaves, Takes x) ↔
      (∀ s ∈ v.numbers, IsNumber s) ∧ ∀ x ∈ v.leaves, ¬x.IsEmptySet := by
  rw [Value.numbers, List.forall_mem_flatMap, ← forall₂_and]
  rfl

/-- **Encoding without a declared type succeeds exactly on the values in which every number text is
that of a number and no set is empty, and reading back what it gives trims the numbers, makes texts
of the dates and changes nothing else.** -/
theorem encode_none_exact (v : Value) :
    ((∃ a, standard.encode none v = .ok a) ↔
      (∀ s ∈ v.numbers, IsNumber s) ∧ ∀ x ∈ v.leaves, ¬x.IsEmptySet) ∧
    ∀ a, standard.encode none v = .ok a → a.decode = v.map Value.Leaf.plain := by
  have hencode : ∀ a, standard.encode none v = .ok a ↔
      (∀ x ∈ v.leaves, Takes x) ∧ v.map encoded = a :=
    fun a => Tree.mapM_eq_map_iff encodeLeaf_iff
  rw [← takes_leaves_iff]
  constructor
  · constructor
    · rintro ⟨a, h⟩
      exact ((hencode a).mp h).1
    · intro h
      exact ⟨v.map encoded, (hencode _).mpr ⟨h, rfl⟩⟩
  · intro a h
    obtain ⟨-, rfl⟩ := (hencode a).mp h
    rw [Attribute.decode, Tree.map_map]
    exact congrArg v.map (funext decode_encoded)

/-- A leap day beside a number and a set of numbers, some with blanks, all below a record; and an
empty set as far below. -/
theorem encode_none_exact_nested :
    let leapDay : Instant := ⟨951782400, 0, by decide⟩
    let nested : Value := .record (.ofList [
      ("at", Value.date leapDay),
      ("sizes", .list [.leaf (.number "\t7 "), .leaf (.numberSet [" -.5", "1e308"])])])
    let native : Attribute := .record (.ofList [
      ("at", .leaf (.text "2000-02-29T00:00:00.000Z")),
      ("sizes", .list [.leaf (.number "7"), .leaf (.numberSet ["-.5", "1e308"])])])
    let hollow : Value := .record (.ofList [("sizes", .list [.leaf (.numberSet [])])])
    standard.encode none nested = .ok native ∧ (∀ s ∈ nested.numbers, IsNumber s) ∧
      native.decode = nested.map Value.Leaf.plain ∧ ¬∃ a, standard.encode none hollow = .ok a := by
  intro leapDay nested native hollow
  have hnested : standard.encode none nested = .ok native := by decide +kernel
  have hempty : Value.Leaf.numberSet [] ∈ hollow.leaves := by decide +kernel
  exact ⟨hnested, ((encode_none_exact nested).1.mp ⟨native, hnested⟩).1,
    (encode_none_exact nested).2 native hnested,
    fun h => ((encode_none_exact hollow).1.mp h).2 _ hempty .number⟩

end Encoding

end ItemStore
