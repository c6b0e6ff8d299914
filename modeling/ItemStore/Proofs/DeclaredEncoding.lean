/-
Encoding under a declared type.

A declared type promises the store something: which variant an attribute has, that no set in it
is empty, and that its numbers are numbers.  The promise is kept, and it says all there is to say:
what keeps it is the encoding of some value, that is, of what it reads back as
(`exists_encode_some_iff`).

A declared set can be given its members in a list.  Such a list should be a set just when each of
its members is one, and `SetEncoding.encodeAs_list` says when that is so, for texts, numbers and
bytes at once, from the little that the three have in common.  Numbers and bytes keep to it.  But a
date, which by itself is the set of its text, is no member of a list of texts (`encode_list_iff`,
`encode_list_of_date`).
-/
import ItemStore.Proofs.FreeEncoding

namespace ItemStore

/-- A leaf that is no set. -/
def Value.Leaf.IsScalar : Value.Leaf → Prop
  | .textSet _ | .numberSet _ | .byteSet _ => False
  | .null | .bool _ | .number _ | .text _ | .bytes _ | .date _ => True

namespace Attribute

/-! ### What is in an attribute

Reading back only renames a leaf, so the number texts and the sets of an attribute are those of the
value that it reads back as.
-/

/-- The number texts of a leaf. -/
def Leaf.numbers (b : Leaf) : List String :=
  b.decode.numbers

/-- The number texts anywhere in an attribute. -/
def numbers (a : Attribute) : List String :=
  a.leaves.flatMap Leaf.numbers

/-- A set without members. -/
def Leaf.IsEmptySet (b : Leaf) : Prop :=
  b.decode.IsEmptySet

/-- A leaf is settled if it is no empty set, its numbers are checked and its null says true. -/
theorem Leaf.settled_iff {b : Leaf} :
    b.Settled ↔ (¬b.IsEmptySet ∧ b ≠ .null false) ∧
      ∀ s ∈ b.numbers, Encoding.checkedNumber s = .ok s := by
  rw [Leaf.IsEmptySet, Value.Leaf.isEmptySet_iff, Leaf.numbers]
  cases b <;> simp [Leaf.Settled, Leaf.decode, Value.Leaf.numbers]

theorem settled_iff {a : Attribute} :
    a.Settled ↔ (∀ b ∈ a.leaves, ¬b.IsEmptySet ∧ b ≠ .null false) ∧
      ∀ s ∈ a.numbers, Encoding.checkedNumber s = .ok s := by
  simp only [Settled, Leaf.settled_iff]
  rw [numbers, List.forall_mem_flatMap, forall₂_and]

/-- The members of a set, each as it would be by itself. -/
def members : Attribute → List Leaf
  | .leaf (.textSet members) => members.map .text
  | .leaf (.numberSet members) => members.map .number
  | .leaf (.byteSet members) => members.map .bytes
  | _ => []

end Attribute

namespace Encoding

/-! ### What comes out -/

/-- **What a declared type gives are its own variants with nothing in them that the store would
refuse, and all of these**: no null at the top, no empty set at any depth, and no number that is not
trimmed and checked. -/
theorem exists_encode_some_iff (type : Datatype) (a : Attribute) :
    (∃ v, standard.encode (some type) v = .ok a) ↔
      type.Admits a ∧ (∀ flag, a ≠ .leaf (.null flag)) ∧
        (∀ b ∈ a.leaves, ¬b.IsEmptySet ∧ b ≠ .null false) ∧
        ∀ s ∈ a.numbers, Text.trim s = s ∧ checkedNumber s = .ok s := by
  constructor
  · rintro ⟨v, h⟩
    obtain ⟨hadmits, hsettled⟩ := admits_of_encodeAs h
    obtain ⟨hleaves, hnumbers⟩ := Attribute.settled_iff.mp hsettled
    refine ⟨hadmits, ?_, hleaves, fun s hs => ?_⟩
    · rintro flag rfl
      cases hadmits
    · have hchecked := hnumbers s hs
      exact ⟨((checkedNumber_iff s s).mp hchecked).2, hchecked⟩
  · rintro ⟨hadmits, -, hleaves, hnumbers⟩
    have hsettled : a.Settled :=
      Attribute.settled_iff.mpr ⟨hleaves, fun s hs => (hnumbers s hs).2⟩
    exact ⟨a.decode, encodeAs_decode hadmits hsettled⟩

/-! ### Sets given as lists -/

/-- A set is made of the members that are given, if there are some. -/
theorem set_eq_ok_iff {α : Type} {given : Except Error (List α)}
    {leaf : List α → Attribute.Leaf} {a : Attribute} :
    (do return .leaf (leaf (← nonEmpty (← given)))) = Except.ok (ε := Error) a ↔
      ∃ members, given = .ok members ∧ members ≠ [] ∧ a = .leaf (leaf members) := by
  constructor
  · exact members_of_set
  · rintro ⟨members, hgiven, hne, rfl⟩
    rw [hgiven]
    exact set_of_members hne

/-- How a set type takes its members, from a list and from what is given by itself. -/
structure SetEncoding (type : Datatype) (α : Type) where
  /-- The set of its members. -/
  leaf : List α → Attribute.Leaf
  /-- A member by itself. -/
  one : α → Attribute.Leaf
  /-- The members that a value gives. -/
  given : Value → Except Error (List α)
  /-- The member that an element of a list gives. -/
  member : Value → Except Error α
  /-- What is a member by itself and not in a list. -/
  Strays : Value.Leaf → Prop
  encodeAs_eq : ∀ v, encodeAs type v = do return .leaf (leaf (← nonEmpty (← given v)))
  members_leaf : ∀ ms, Attribute.members (.leaf (leaf ms)) = ms.map one
  given_list : ∀ items, given (.list items) = items.mapM member
  given_leaf : ∀ x, x.IsScalar → ¬Strays x →
    given (.leaf x) = (fun m => [m]) <$> member (.leaf x)
  not_member : ∀ x m, Strays x → member (.leaf x) ≠ .ok m

namespace SetEncoding

variable {α : Type} {type : Datatype} (e : SetEncoding type α) {xs : List Value.Leaf}

/-- What gives a member in a list is the set of this member by itself, and so for everything but
the strays. -/
theorem encodeAs_leaf_iff {x : Value.Leaf} (hscalar : x.IsScalar) (hstrays : ¬e.Strays x)
    {b : Attribute} :
    encodeAs type (.leaf x) = .ok b ↔
      ∃ m, e.member (.leaf x) = .ok m ∧ b = .leaf (e.leaf [m]) := by
  rw [e.encodeAs_eq, set_eq_ok_iff, e.given_leaf x hscalar hstrays]
  simp only [map_eq_ok]
  constructor
  · rintro ⟨_, ⟨m, hm, rfl⟩, -, rfl⟩
    exact ⟨m, hm, rfl⟩
  · rintro ⟨m, hm, rfl⟩
    exact ⟨[m], ⟨m, hm, rfl⟩, by simp, rfl⟩

/-- A list is the set of the members that its elements give. -/
theorem encodeAs_list_iff (hne : xs ≠ []) {a : Attribute} :
    encodeAs type (.list (xs.map .leaf)) = .ok a ↔
      ∃ ms, List.Forall₂ (fun x m => e.member (.leaf x) = .ok m) xs ms ∧
        a = .leaf (e.leaf ms) := by
  rw [e.encodeAs_eq, set_eq_ok_iff, e.given_list]
  simp only [mapM_eq_ok_iff, List.forall₂_map_left_iff]
  constructor
  · rintro ⟨ms, hms, -, rfl⟩
    exact ⟨ms, hms, rfl⟩
  · rintro ⟨ms, hms, rfl⟩
    refine ⟨ms, hms, ?_, rfl⟩
    rintro rfl
    exact hne (List.forall₂_nil_right_iff.mp hms)

/-- A list that is a set has no strays, and each of its elements is by itself the set of the member
that it gives. -/
theorem alone_of_list (hne : xs ≠ []) (hscalar : ∀ x ∈ xs, x.IsScalar) {a : Attribute}
    (h : encodeAs type (.list (xs.map .leaf)) = .ok a) :
    ∃ ms, a = .leaf (e.leaf ms) ∧ List.Forall₂ (fun x m =>
      ¬e.Strays x ∧ encodeAs type (.leaf x) = .ok (.leaf (e.leaf [m]))) xs ms := by
  obtain ⟨ms, hms, rfl⟩ := (e.encodeAs_list_iff hne).mp h
  have hall := (List.forall₂_and_left _ _).mpr ⟨hscalar, hms⟩
  refine ⟨ms, rfl, hall.imp fun x m => ?_⟩
  rintro ⟨hx, hm⟩
  have hstrays : ¬e.Strays x := fun hs => e.not_member x m hs hm
  exact ⟨hstrays, (e.encodeAs_leaf_iff hx hstrays).mpr ⟨m, hm, rfl⟩⟩

/-- **A list is a set just when each of its elements is by itself and none of them strays, and then
it is the set of all their members.** -/
theorem encodeAs_list (hne : xs ≠ []) (hscalar : ∀ x ∈ xs, x.IsScalar) :
    ((∃ a, encodeAs type (.list (xs.map .leaf)) = .ok a) ↔
      (∀ x ∈ xs, ∃ b, encodeAs type (.leaf x) = .ok b) ∧ ∀ x ∈ xs, ¬e.Strays x) ∧
    ∀ a, encodeAs type (.list (xs.map .leaf)) = .ok a →
      ∃ bs, List.Forall₂ (fun x b => encodeAs type (.leaf x) = .ok b) xs bs ∧
        a.members = bs.flatMap Attribute.members := by
  refine ⟨⟨?_, ?_⟩, fun a h => ?_⟩
  · rintro ⟨a, h⟩
    obtain ⟨ms, -, hms⟩ := e.alone_of_list hne hscalar h
    have halone := fun x hx => exists_of_forall₂ hms.flip x hx
    refine ⟨fun x hx => ?_, fun x hx => ?_⟩
    · obtain ⟨m, -, -, hencode⟩ := halone x hx
      exact ⟨_, hencode⟩
    · obtain ⟨m, -, hstrays, -⟩ := halone x hx
      exact hstrays
  · rintro ⟨h, hstrays⟩
    have hmembers : ∀ x ∈ xs, ∃ m, e.member (.leaf x) = .ok m := by
      intro x hx
      obtain ⟨b, hb⟩ := h x hx
      obtain ⟨m, hm, -⟩ := (e.encodeAs_leaf_iff (hscalar x hx) (hstrays x hx)).mp hb
      exact ⟨m, hm⟩
    obtain ⟨ms, hms⟩ := exists_mapM_eq_ok_iff.mpr hmembers
    exact ⟨_, (e.encodeAs_list_iff hne).mpr ⟨ms, mapM_eq_ok_iff.mp hms, rfl⟩⟩
  · obtain ⟨ms, rfl, hms⟩ := e.alone_of_list hne hscalar h
    refine ⟨ms.map fun m => .leaf (e.leaf [m]), ?_, ?_⟩
    · rw [List.forall₂_map_right_iff]
      exact hms.imp fun x m hm => hm.2
    · rw [e.members_leaf, List.flatMap_map]
      simp only [e.members_leaf, List.map_singleton]
      exact List.map_eq_flatMap

end SetEncoding

/-- The member that an element gives to a list of texts. -/
def textMember : Value → Except Error String
  | .leaf (.text s) => .ok s
  | other => mismatch other .stringSet

/-- The member that an element gives to a list of numbers. -/
def numberMember : Value → Except Error String
  | .leaf (.number s) => checkedNumber s
  | other => mismatch other .numberSet

/-- The member that an element gives to a list of byte strings. -/
def byteMember : Value → Except Error Bytes
  | .leaf (.bytes b) => .ok b
  | other => mismatch other .binarySet

/-- Sets of texts, from the lists of which dates stray. -/
def textSets : SetEncoding .stringSet String where
  leaf := .textSet
  one := .text
  given := textMembers
  member := textMember
  Strays x := ∃ t, x = .date t
  encodeAs_eq v := by cases v <;> rfl
  members_leaf _ := rfl
  given_list _ := rfl
  given_leaf x hscalar hstrays := by
    cases x with
    | date t => exact absurd ⟨t, rfl⟩ hstrays
    | textSet _ | numberSet _ | byteSet _ => exact hscalar.elim
    | null | bool _ | number _ | text _ | bytes _ => rfl
  not_member := by
    rintro x m ⟨t, rfl⟩ h
    cases h

/-- Sets of numbers. -/
def numberSets : SetEncoding .numberSet String where
  leaf := .numberSet
  one := .number
  given := numberMembers
  member := numberMember
  Strays _ := False
  encodeAs_eq v := by cases v <;> rfl
  members_leaf _ := rfl
  given_list _ := rfl
  given_leaf x hscalar _ := by
    cases x with
    | textSet _ | numberSet _ | byteSet _ => exact hscalar.elim
    | null | bool _ | number _ | text _ | bytes _ | date _ => rfl
  not_member _ _ := False.elim

/-- Sets of byte strings. -/
def byteSets : SetEncoding .binarySet Bytes where
  leaf := .byteSet
  one := .bytes
  given := byteMembers
  member := byteMember
  Strays _ := False
  encodeAs_eq v := by cases v <;> rfl
  members_leaf _ := rfl
  given_list _ := rfl
  given_leaf x hscalar _ := by
    cases x with
    | textSet _ | numberSet _ | byteSet _ => exact hscalar.elim
    | null | bool _ | number _ | text _ | bytes _ | date _ => rfl
  not_member _ _ := False.elim

/-- **A list is encoded under a set type if each of its elements is by itself, and then has their
members in order**, with one exception: a list with dates in it is no set of texts, though a date by
itself is one. -/
theorem encode_list_iff {type : Datatype} {xs : List Value.Leaf} (hset : type.isSet = true)
    (hne : xs ≠ []) (hscalar : ∀ x ∈ xs, x.IsScalar) :
    ((∃ a, standard.encode (some type) (.list (xs.map .leaf)) = .ok a) ↔
      (∀ x ∈ xs, ∃ b, standard.encode (some type) (.leaf x) = .ok b) ∧
        (type = .stringSet → ∀ t, .date t ∉ xs)) ∧
    ∀ a, standard.encode (some type) (.list (xs.map .leaf)) = .ok a →
      type.Admits a ∧
        ∃ bs, List.Forall₂ (fun x b => standard.encode (some type) (.leaf x) = .ok b) xs bs ∧
          a.members = bs.flatMap Attribute.members := by
  have hadmits : ∀ a, encodeAs type (.list (xs.map .leaf)) = .ok a → type.Admits a :=
    fun a h => (admits_of_encodeAs h).1
  cases type with
  | stringSet =>
      obtain ⟨hiff, hmembers⟩ := textSets.encodeAs_list hne hscalar
      have hdates : (∀ x ∈ xs, ¬textSets.Strays x) ↔ ∀ t, .date t ∉ xs :=
        ⟨fun h t ht => h _ ht ⟨t, rfl⟩, by rintro h x hx ⟨t, rfl⟩; exact h t hx⟩
      rw [hdates] at hiff
      exact ⟨hiff.trans (and_congr_right' ⟨fun h _ => h, fun h => h rfl⟩),
        fun a h => ⟨hadmits a h, hmembers a h⟩⟩
  | numberSet =>
      obtain ⟨hiff, hmembers⟩ := numberSets.encodeAs_list hne hscalar
      exact ⟨hiff.trans (and_congr_right' (iff_of_true (fun _ _ => id) nofun)),
        fun a h => ⟨hadmits a h, hmembers a h⟩⟩
  | binarySet =>
      obtain ⟨hiff, hmembers⟩ := byteSets.encodeAs_list hne hscalar
      exact ⟨hiff.trans (and_congr_right' (iff_of_true (fun _ _ => id) nofun)),
        fun a h => ⟨hadmits a h, hmembers a h⟩⟩
  | string | number | binary | boolean | date | list | map => cases hset

/-- Two numbers, one with a blank, as a set of numbers; beside a date they are none. -/
theorem encode_list_iff_two_numbers :
    let leapDay : Instant := ⟨951782400, 0, by decide⟩
    let xs : List Value.Leaf := [.number " 7", .number "1e3"]
    let ys : List Value.Leaf := [.number " 7", .date leapDay]
    Datatype.numberSet.isSet = true ∧ xs ≠ [] ∧ (∀ x ∈ xs, x.IsScalar) ∧
      standard.encode (some .numberSet) (.list (xs.map .leaf)) =
        .ok (.leaf (.numberSet ["7", "1e3"])) ∧
      (∀ x ∈ xs, ∃ b, standard.encode (some .numberSet) (.leaf x) = .ok b) ∧
      ¬∃ a, standard.encode (some .numberSet) (.list (ys.map .leaf)) = .ok a := by
  intro leapDay xs ys
  have hset : Datatype.numberSet.isSet = true := rfl
  have hxs : ∀ x ∈ xs, x.IsScalar := by simp [xs, Value.Leaf.IsScalar]
  have hys : ∀ x ∈ ys, x.IsScalar := by simp [ys, Value.Leaf.IsScalar]
  have hencode : standard.encode (some .numberSet) (.list (xs.map .leaf)) =
      .ok (.leaf (.numberSet ["7", "1e3"])) := by decide +kernel
  refine ⟨hset, by simp [xs], hxs, hencode,
    ((encode_list_iff hset (by simp [xs]) hxs).1.mp ⟨_, hencode⟩).1, fun h => ?_⟩
  obtain ⟨b, hb⟩ :=
    ((encode_list_iff hset (by simp [ys]) hys).1.mp h).1 (.date leapDay) (by simp [ys])
  cases hb

/-- A date by itself is the set of its text, and in a list by itself it is refused. -/
theorem encode_list_of_date :
    let leapDay : Value := .date ⟨951782400, 0, by decide⟩
    standard.encode (some .stringSet) leapDay =
        .ok (.leaf (.textSet ["2000-02-29T00:00:00.000Z"])) ∧
      standard.encode (some .stringSet) (.list [leapDay]) =
        .error (.encoding (.mismatch leapDay .stringSet)) := by
  decide +kernel

end Encoding

end ItemStore
