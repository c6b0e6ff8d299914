/-
What is written is read back.

Lists and tables are read back if what is in them is (`list?_list`, `dict?_ofDict`), and nested data
is if its leaves are and no leaf is written like a list or a record (`tree?_ofTree`).  The recursion
through lists and tables is gone through once, by the induction on trees; that the readers of items
and members are the readers of lists and tables is what `items?_eq` and its like say.
-/
import ItemStore.Proofs.Tree
import ItemStore.Wire.Value

namespace ItemStore.Wire

variable {α : Type}

/-! ### Lists and tables -/

theorem mapM_map_eq_some {β : Type} {read : β → Option α} {write : α → β} {as : List α}
    (h : ∀ a ∈ as, read (write a) = some a) : (as.map write).mapM read = some as := by
  induction as with
  | nil => rfl
  | cons a as ih =>
      rw [List.map_cons, List.mapM_cons, h a List.mem_cons_self,
        ih fun b hb => h b (List.mem_cons_of_mem _ hb)]
      rfl

/-- **A list is read back if its items are.** -/
theorem list?_list {read : Json → Option α} {write : α → Json} {as : List α}
    (h : ∀ a ∈ as, read (write a) = some a) : list? read (.list (as.map write)) = some as :=
  mapM_map_eq_some h

/-- A member as it is written. -/
def plain (m : String × Json) : Json.Text × Json :=
  (.plain m.1, m.2)

theorem ofMembers_eq (members : List (String × Json)) :
    Json.ofMembers members = .object (members.map plain) := rfl

/-- The entries of a table are read back if its values are. -/
theorem mapM_member?_eq_some {read : Json → Option α} {write : α → Json}
    {entries : List (String × α)} (h : ∀ p ∈ entries, read (write p.2) = some p.2) :
    (entries.map fun p => plain (p.1, write p.2)).mapM (member? read) = some entries := by
  refine mapM_map_eq_some fun p hp => ?_
  rw [plain, member?, h p hp]
  rfl

/-- **A table is read back if its values are.** -/
theorem dict?_ofDict {read : Json → Option α} {write : α → Json} {d : Dict α}
    (h : ∀ p ∈ d.toList, read (write p.2) = some p.2) : dict? read (ofDict write d) = some d := by
  rw [ofDict, ofMembers_eq, List.map_map]
  show ((d.toList.map fun p => plain (p.1, write p.2)).mapM (member? read)).map Entries.ofList = _
  rw [mapM_member?_eq_some h, Option.map_some, Entries.ofList_toList]

theorem bytes?_ofBytes (b : Bytes) : bytes? (ofBytes b) = some b := by
  refine mapM_map_eq_some fun x _ => ?_
  have hx : (0 : Int) ≤ x.toNat ∧ (x.toNat : Int) < 256 := by
    have := x.toNat_lt
    omega
  simp [natBelow?, Json.nat, hx]

/-! ### Tagged data -/

section Tagged

variable {leaf? : Json → Option α} {ofLeaf : α → Json}

theorem ofItems_eq (items : List (Tree α)) :
    ofItems ofLeaf items = items.map (ofTree ofLeaf) := by
  induction items with
  | nil => rfl
  | cons t ts ih => rw [ofItems, ih, List.map_cons]

theorem ofFields_eq {lo : Option String} (d : Entries (Tree α) lo) :
    ofFields ofLeaf d = d.toList.map fun p => plain (p.1, ofTree ofLeaf p.2) := by
  induction d with
  | nil => rfl
  | cons key beyond t rest ih => rw [ofFields, ih, Entries.toList, List.map_cons, plain]

theorem items?_eq (js : List Json) : items? leaf? js = js.mapM (tree? leaf?) := by
  induction js with
  | nil => rw [items?]; rfl
  | cons j js ih => rw [items?, ih, List.mapM_cons]

theorem members?_eq (members : List (Json.Text × Json)) :
    members? leaf? members = members.mapM (member? (tree? leaf?)) := by
  induction members with
  | nil => rw [members?]; rfl
  | cons m members ih =>
      obtain ⟨k, j⟩ := m
      cases k with
      | plain k =>
          rw [members?, ih, List.mapM_cons, member?]
          cases tree? leaf? j <;> rfl
      | broken codes bare => rw [members?, List.mapM_cons, member?]; rfl

/-- **Tagged data is read back if its leaves are**, each as a leaf. -/
theorem tree?_ofTree (h : ∀ a, tree? leaf? (ofLeaf a) = some (.leaf a)) (t : Tree α) :
    tree? leaf? (ofTree ofLeaf t) = some t := by
  induction t with
  | leaf a => exact h a
  | list items ih =>
      rw [ofTree, Json.tagged, tree?, items?_eq, ofItems_eq, mapM_map_eq_some ih, Option.map_some]
  | record fields ih =>
      rw [ofTree, Json.tagged, tree?, members?_eq, ofFields_eq, mapM_member?_eq_some ih,
        Option.map_some, Entries.ofList_toList]

/-- What has a tag of its own is a leaf. -/
theorem tree?_tagged {tag : String} (hlist : tag ≠ "L") (hrecord : tag ≠ "M") (payload : Json) :
    tree? leaf? (.tagged tag payload) = (leaf? (.tagged tag payload)).map .leaf := by
  rw [Json.tagged, tree?]
  · rintro items he
    cases he
    exact hlist rfl
  · rintro members he
    cases he
    exact hrecord rfl

end Tagged

/-! ### Native attributes -/

theorem attribute?_ofAttribute (a : Attribute) : attribute? (ofAttribute a) = some a := by
  have htexts : ∀ members, list? text? (ofTexts members) = some members :=
    fun members => list?_list fun s _ => rfl
  refine tree?_ofTree (fun a => ?_) a
  cases a <;> rw [ofAttributeLeaf, tree?_tagged (by decide) (by decide)]
  case text s => rfl
  case number s => rfl
  case bytes b =>
    show ((bytes? (ofBytes b)).map Attribute.Leaf.bytes).map Tree.leaf = _
    rw [bytes?_ofBytes]
    rfl
  case bool b => rfl
  case null flag => rfl
  case textSet members =>
    show ((list? text? (ofTexts members)).map Attribute.Leaf.textSet).map Tree.leaf = _
    rw [htexts]
    rfl
  case numberSet members =>
    show ((list? text? (ofTexts members)).map Attribute.Leaf.numberSet).map Tree.leaf = _
    rw [htexts]
    rfl
  case byteSet members =>
    show ((list? bytes? (.list (members.map ofBytes))).map Attribute.Leaf.byteSet).map
      Tree.leaf = _
    rw [list?_list fun b _ => bytes?_ofBytes b]
    rfl

theorem nativeItem?_ofNativeItem (item : NativeItem) :
    nativeItem? (ofNativeItem item) = some item :=
  dict?_ofDict fun p _ => attribute?_ofAttribute p.2

/-! ### Free-form data -/

theorem ofData_eq (items : List Datum) : ofData items = items.map ofDatum := by
  induction items with
  | nil => rfl
  | cons t ts ih => rw [ofData, ih, List.map_cons]

theorem ofDatumFields_eq {lo : Option String} (d : Entries Datum lo) :
    ofDatumFields d = d.toList.map fun p => plain (p.1, ofDatum p.2) := by
  induction d with
  | nil => rfl
  | cons key beyond t rest ih => rw [ofDatumFields, ih, Entries.toList, List.map_cons, plain]

theorem data?_eq (js : List Json) : data? js = js.mapM datum? := by
  induction js with
  | nil => rw [data?]; rfl
  | cons j js ih => rw [data?, ih, List.mapM_cons]

theorem datumMembers?_eq (members : List (Json.Text × Json)) :
    datumMembers? members = members.mapM (member? datum?) := by
  induction members with
  | nil => rw [datumMembers?]; rfl
  | cons m members ih =>
      obtain ⟨k, j⟩ := m
      cases k with
      | plain k =>
          rw [datumMembers?, ih, List.mapM_cons, member?]
          cases datum? j <;> rfl
      | broken codes bare => rw [datumMembers?, List.mapM_cons, member?]; rfl

/-- **Free-form data is read back.** -/
theorem datum?_ofDatum (d : Datum) : datum? (ofDatum d) = some d := by
  induction d using Tree.induction with
  | leaf a =>
      cases a <;> rw [ofDatum, ofDatumLeaf] <;> simp [Json.int, Json.double, Json.str, datum?]
  | list items ih =>
      rw [ofDatum, datum?, data?_eq, ofData_eq, mapM_map_eq_some ih, Option.map_some]
  | record fields ih =>
      rw [ofDatum, datum?, datumMembers?_eq, ofDatumFields_eq, mapM_member?_eq_some ih,
        Option.map_some, Entries.ofList_toList]

end ItemStore.Wire
