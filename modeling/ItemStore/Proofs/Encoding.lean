/-
What encoding gives it gives again.

Encoding loses things: blanks around numbers, the difference between a date and its text,
between one member and a set of one.  But it loses them once.  What it gives is `Settled`,
with checked numbers and sets that have members at every depth, and under a declared type it
is one of the variants the type `Admits`.  Conversely what is settled and admitted is encoded
as it stands when it is read back, so that reading and writing again changes nothing.
-/
import ItemStore.Encoding
import ItemStore.Proofs.Tree
import ItemStore.Proofs.Trim

namespace ItemStore

/-- A native leaf as encoding leaves it. -/
def Attribute.Leaf.Settled : Attribute.Leaf → Prop
  | .number s => Encoding.checkedNumber s = .ok s
  | .null flag => flag = true
  | .textSet members => members ≠ []
  | .numberSet members => members ≠ [] ∧ ∀ s ∈ members, Encoding.checkedNumber s = .ok s
  | .byteSet members => members ≠ []
  | .text _ | .bytes _ | .bool _ => True

/-- Every leaf, at any depth, is as encoding leaves it. -/
def Attribute.Settled (a : Attribute) : Prop :=
  ∀ b ∈ a.leaves, b.Settled

/-- The native variants of a declared type. -/
inductive Datatype.Admits : Datatype → Attribute → Prop
  | string (s : String) : Admits .string (.leaf (.text s))
  | number (s : String) : Admits .number (.leaf (.number s))
  | binary (b : Bytes) : Admits .binary (.leaf (.bytes b))
  | boolean (b : Bool) : Admits .boolean (.leaf (.bool b))
  | dateText (s : String) : Admits .date (.leaf (.text s))
  | dateNumber (s : String) : Admits .date (.leaf (.number s))
  | stringSet (members : List String) : Admits .stringSet (.leaf (.textSet members))
  | numberSet (members : List String) : Admits .numberSet (.leaf (.numberSet members))
  | binarySet (members : List Bytes) : Admits .binarySet (.leaf (.byteSet members))
  | list (items : List Attribute) : Admits .list (.list items)
  | map (fields : Dict Attribute) : Admits .map (.record fields)

@[simp] theorem Attribute.settled_leaf_iff {b : Attribute.Leaf} :
    Attribute.Settled (.leaf b) ↔ b.Settled := by
  simp [Attribute.Settled]

namespace Encoding

/-! ### Numbers and members -/

theorem checkedNumber_eq_ok_iff {s t : String} :
    checkedNumber s = .ok t ↔ t = Text.trim s ∧
      ∃ n, Decimal.Numeral.ofChars? (Text.trimChars s.toList) = some n ∧ n.isFinite = true := by
  unfold checkedNumber
  cases Decimal.Numeral.ofChars? (Text.trimChars s.toList) with
  | none => simp
  | some n =>
      by_cases hfinite : n.isFinite = true
      · simp only [hfinite, if_true, Except.ok.injEq]
        exact ⟨fun h => ⟨h.symm, n, rfl, hfinite⟩, fun h => h.1.symm⟩
      · simp [hfinite]

/-- A number that was checked has no blanks to lose. -/
theorem checkedNumber_checked {s t : String} (h : checkedNumber s = .ok t) :
    checkedNumber t = .ok t := by
  obtain ⟨rfl, n, hread, hfinite⟩ := checkedNumber_eq_ok_iff.mp h
  have htrim : Text.trimChars (Text.trim s).toList = Text.trimChars s.toList := by
    rw [Text.toList_trim, Text.trimChars_trimChars]
  refine checkedNumber_eq_ok_iff.mpr ⟨?_, n, by rw [htrim, hread], hfinite⟩
  show String.ofList _ = String.ofList _
  rw [htrim]

theorem mapM_checkedNumber_eq_ok {members checked : List String}
    (h : members.mapM checkedNumber = .ok checked) :
    ∀ s ∈ checked, checkedNumber s = .ok s := by
  intro s hs
  obtain ⟨_, -, hchecked⟩ := exists_of_forall₂ (mapM_eq_ok_iff.mp h) s hs
  exact checkedNumber_checked hchecked

theorem mapM_checkedNumber_self {members : List String}
    (h : ∀ s ∈ members, checkedNumber s = .ok s) : members.mapM checkedNumber = .ok members :=
  mapM_eq_ok_iff.mpr (List.forall₂_same.mpr h)

theorem nonEmpty_eq_ok_iff {α : Type} {members members' : List α} :
    nonEmpty members = .ok members' ↔ members' = members ∧ members ≠ [] := by
  unfold nonEmpty
  cases members with
  | nil => simp
  | cons m ms => simp [eq_comm]

theorem nonEmpty_self {α : Type} {members : List α} (h : members ≠ []) :
    nonEmpty members = .ok members :=
  nonEmpty_eq_ok_iff.mpr ⟨rfl, h⟩

/-! ### Without a declared type -/

theorem settled_of_encodeLeaf {x : Value.Leaf} {b : Attribute.Leaf} (h : encodeLeaf x = .ok b) :
    b.Settled := by
  cases x with
  | null => cases h; rfl
  | bool _ => cases h; trivial
  | number s =>
      obtain ⟨t, ht, rfl⟩ := map_eq_ok.mp h
      exact checkedNumber_checked ht
  | text _ => cases h; trivial
  | bytes _ => cases h; trivial
  | date _ => cases h; trivial
  | textSet members =>
      obtain ⟨_, hmembers, rfl⟩ := map_eq_ok.mp h
      obtain ⟨rfl, hne⟩ := nonEmpty_eq_ok_iff.mp hmembers
      exact hne
  | numberSet members =>
      obtain ⟨checked, hchecked, h⟩ := bind_eq_ok.mp h
      obtain ⟨_, hmembers, rfl⟩ := map_eq_ok.mp h
      obtain ⟨rfl, hne⟩ := nonEmpty_eq_ok_iff.mp hmembers
      exact ⟨hne, mapM_checkedNumber_eq_ok hchecked⟩
  | byteSet members =>
      obtain ⟨_, hmembers, rfl⟩ := map_eq_ok.mp h
      obtain ⟨rfl, hne⟩ := nonEmpty_eq_ok_iff.mp hmembers
      exact hne

/-- A leaf that is settled is encoded as it stands. -/
theorem encodeLeaf_decode {b : Attribute.Leaf} (h : b.Settled) : encodeLeaf b.decode = .ok b := by
  cases b with
  | text _ => rfl
  | number s => exact map_eq_ok.mpr ⟨s, h, rfl⟩
  | bytes _ => rfl
  | bool _ => rfl
  | null flag =>
      cases (show flag = true from h)
      rfl
  | textSet members => exact map_eq_ok.mpr ⟨members, nonEmpty_self h, rfl⟩
  | numberSet members =>
      exact bind_eq_ok.mpr ⟨members, mapM_checkedNumber_self h.2,
        map_eq_ok.mpr ⟨members, nonEmpty_self h.1, rfl⟩⟩
  | byteSet members => exact map_eq_ok.mpr ⟨members, nonEmpty_self h, rfl⟩

theorem settled_of_encodeFree {v : Value} {a : Attribute} (h : encodeFree v = .ok a) :
    a.Settled := by
  intro b hb
  obtain ⟨_, -, hleaf⟩ := exists_of_forall₂ (Tree.forall₂_leaves h) b hb
  exact settled_of_encodeLeaf hleaf

/-- **What is settled is encoded as it stands.** -/
theorem encodeFree_decode {a : Attribute} (h : a.Settled) : encodeFree a.decode = .ok a :=
  Tree.mapM_map_eq_self fun b hb => encodeLeaf_decode (h b hb)

/-! ### Under a declared type -/

/-- The members of a set of numbers are checked, wherever they come from. -/
theorem checked_of_numberMembers {v : Value} {members : List String}
    (h : numberMembers v = .ok members) : ∀ s ∈ members, checkedNumber s = .ok s := by
  unfold numberMembers at h
  split at h
  · obtain ⟨t, ht, he⟩ := bind_eq_ok.mp h
    cases he
    intro s hs
    rw [List.mem_singleton.mp hs]
    exact checkedNumber_checked ht
  · exact mapM_checkedNumber_eq_ok h
  · intro s hs
    obtain ⟨item, -, hitem⟩ := exists_of_forall₂ (mapM_eq_ok_iff.mp h) s hs
    split at hitem
    · exact checkedNumber_checked hitem
    · cases hitem
  · cases h

/-- A number under a declared type is settled, whatever it was written as. -/
theorem settled_of_number {s : String} {a : Attribute}
    (h : (do return .leaf (.number (← checkedNumber s))) = Except.ok (ε := Error) a) :
    ∃ t, a = .leaf (.number t) ∧ a.Settled := by
  obtain ⟨t, ht, he⟩ := bind_eq_ok.mp h
  cases he
  exact ⟨t, rfl, Attribute.settled_leaf_iff.mpr (checkedNumber_checked ht)⟩

/-- A set under a declared type has the members it was given, and some. -/
theorem members_of_set {α : Type} {given : Except Error (List α)}
    {leaf : List α → Attribute.Leaf} {a : Attribute}
    (h : (do return .leaf (leaf (← nonEmpty (← given)))) = Except.ok (ε := Error) a) :
    ∃ members, given = .ok members ∧ members ≠ [] ∧ a = .leaf (leaf members) := by
  obtain ⟨members, hgiven, h⟩ := bind_eq_ok.mp h
  obtain ⟨members', hmembers, he⟩ := bind_eq_ok.mp h
  obtain ⟨hsame, hne⟩ := nonEmpty_eq_ok_iff.mp hmembers
  cases he
  exact ⟨members, hgiven, hne, by rw [hsame]⟩

/-- What a declared type gives is one of its variants, and settled. -/
theorem admits_of_encodeAs {type : Datatype} {v : Value} {a : Attribute}
    (h : encodeAs type v = .ok a) : type.Admits a ∧ a.Settled := by
  unfold encodeAs at h
  -- the alternatives in the order in which the encoding tries them
  split at h
  case h_1 | h_2 | h_3 =>
    cases h
    exact ⟨.string _, Attribute.settled_leaf_iff.mpr trivial⟩
  case h_4 | h_5 =>
    cases h
    exact ⟨.dateText _, Attribute.settled_leaf_iff.mpr trivial⟩
  case h_6 =>
    obtain ⟨t, rfl, hsettled⟩ := settled_of_number h
    exact ⟨.dateNumber t, hsettled⟩
  case h_7 | h_8 =>
    obtain ⟨t, rfl, hsettled⟩ := settled_of_number h
    exact ⟨.number t, hsettled⟩
  case h_9 | h_10 =>
    cases h
    exact ⟨.binary _, Attribute.settled_leaf_iff.mpr trivial⟩
  case h_11 =>
    cases h
    exact ⟨.boolean _, Attribute.settled_leaf_iff.mpr trivial⟩
  case h_12 =>
    obtain ⟨members, -, hne, rfl⟩ := members_of_set h
    exact ⟨.stringSet members, Attribute.settled_leaf_iff.mpr hne⟩
  case h_13 =>
    obtain ⟨members, hgiven, hne, rfl⟩ := members_of_set h
    exact ⟨.numberSet members,
      Attribute.settled_leaf_iff.mpr ⟨hne, checked_of_numberMembers hgiven⟩⟩
  case h_14 =>
    obtain ⟨members, -, hne, rfl⟩ := members_of_set h
    exact ⟨.binarySet members, Attribute.settled_leaf_iff.mpr hne⟩
  case h_15 =>
    have hsettled := settled_of_encodeFree h
    rw [encodeFree, Tree.mapM_list] at h
    obtain ⟨items, -, rfl⟩ := map_eq_ok.mp h
    exact ⟨.list items, hsettled⟩
  case h_16 =>
    have hsettled := settled_of_encodeFree h
    rw [encodeFree, Tree.mapM_record] at h
    obtain ⟨fields, -, rfl⟩ := map_eq_ok.mp h
    exact ⟨.map fields, hsettled⟩
  case h_17 => cases h

theorem set_of_members {α : Type} {members : List α} {leaf : List α → Attribute.Leaf}
    (h : members ≠ []) :
    (do return .leaf (leaf (← nonEmpty members))) =
      (Except.ok (.leaf (leaf members)) : Except Error Attribute) := by
  rw [nonEmpty_self h]
  rfl

/-- **What is settled and admitted is encoded as it stands.** -/
theorem encodeAs_decode {type : Datatype} {a : Attribute} (hadmits : type.Admits a)
    (h : a.Settled) : encodeAs type a.decode = .ok a := by
  cases hadmits with
  | string s => rfl
  | number s => exact bind_eq_ok.mpr ⟨s, Attribute.settled_leaf_iff.mp h, rfl⟩
  | binary b => rfl
  | boolean b => rfl
  | dateText s => rfl
  | dateNumber s => exact bind_eq_ok.mpr ⟨s, Attribute.settled_leaf_iff.mp h, rfl⟩
  | stringSet members => exact set_of_members (Attribute.settled_leaf_iff.mp h)
  | numberSet members =>
      obtain ⟨hne, hchecked⟩ := Attribute.settled_leaf_iff.mp h
      exact bind_eq_ok.mpr ⟨members, mapM_checkedNumber_self hchecked, set_of_members hne⟩
  | binarySet members => exact set_of_members (Attribute.settled_leaf_iff.mp h)
  | list items => exact encodeFree_decode h
  | map fields => exact encodeFree_decode h

/-! ### Writing again what was read -/

/-- What encoding gives is encoded as it stands. -/
theorem encode_decode {type? : Option Datatype} {v : Value} {a : Attribute}
    (h : encode type? v = .ok a) : encode type? a.decode = .ok a := by
  cases type? with
  | none => exact encodeFree_decode (settled_of_encodeFree h)
  | some type =>
      obtain ⟨hadmits, hsettled⟩ := admits_of_encodeAs h
      exact encodeAs_decode hadmits hsettled

/-- **Reading what was encoded and encoding it again changes nothing**, neither for one value,
whatever type it is declared to have, nor for all attributes of an item. -/
theorem encode_again :
    (∀ type? v a, standard.encode type? v = .ok a → standard.encode type? a.decode = .ok a) ∧
      ∀ schema item native, encodeItem schema item = .ok native →
        ∃ again, standard.decodeItem native = .ok again ∧ encodeItem schema again = .ok native := by
  refine ⟨fun type? v a => encode_decode, fun schema item native h => ⟨native.decode, rfl, ?_⟩⟩
  refine Entries.mapM_map_eq_self fun p hp => ?_
  obtain ⟨q, -, hname, hencode⟩ := exists_of_forall₂ (Entries.forall₂_of_mapM h) p hp
  rw [hname] at hencode
  exact encode_decode hencode

/-- A leap day, a number with a blank and nothing, all below a record without a type; and an
item of a text for a number, a number for a set of them and a date without a type. -/
theorem encode_again_nested :
    let leapDay : Instant := ⟨951782400, 0, by decide⟩
    let nested : Value := .record (.ofList [
      ("at", Value.date leapDay), ("list", .list [.leaf (.number " 7"), Value.null])])
    let native : Attribute := .record (.ofList [
      ("at", .leaf (.text "2000-02-29T00:00:00.000Z")),
      ("list", .list [.leaf (.number "7"), .leaf (.null true)])])
    let schema := (Schema.ofHashKey "id" .number).withAttribute "sizes" .numberSet
    let item : Item := .ofList [
      ("id", .text "12 "), ("seen", .date leapDay), ("sizes", .leaf (.number " 1e3"))]
    let stored : NativeItem := .ofList [
      ("id", .leaf (.number "12")), ("seen", .leaf (.text "2000-02-29T00:00:00.000Z")),
      ("sizes", .leaf (.numberSet ["1e3"]))]
    (standard.encode none nested = .ok native ∧
      standard.encode none native.decode = .ok native) ∧
    encodeItem schema item = .ok stored ∧
      ∃ again, standard.decodeItem stored = .ok again ∧ encodeItem schema again = .ok stored := by
  intro leapDay nested native schema item stored
  have hnested : standard.encode none nested = .ok native := by decide +kernel
  have hitem : encodeItem schema item = .ok stored := by decide +kernel
  exact ⟨⟨hnested, encode_again.1 none nested native hnested⟩, hitem,
    encode_again.2 schema item stored hitem⟩

end Encoding

end ItemStore
