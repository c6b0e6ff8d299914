/-
The leaves of nested data.

What `map` and `mapM` do to a tree they do to its leaves, one by one, and the shape stays.
So a property of every leaf, at whatever depth, is a property of a list (`leaves`), and the
recursion through lists and tables is gone through here once: a tree that `mapM` gives has
the images of the leaves as leaves (`forall₂_leaves`), and a function that takes the leaves of
one tree to those of another gives the tree (`mapM_map`).
-/
import ItemStore.Tree
import ItemStore.Proofs.Dict
import ItemStore.Proofs.Except

namespace ItemStore

namespace Entries

variable {α β ε : Type}

/-! ### Tables gone through with a function that can fail -/

/-- Every entry has an image under its own key. -/
theorem forall₂_of_mapM {f : String → α → Except ε β} {lo : Option String} {d : Entries α lo} :
    ∀ {e : Entries β lo}, d.mapM f = .ok e →
      List.Forall₂ (fun p q => p.1 = q.1 ∧ f p.1 p.2 = .ok q.2) d.toList e.toList := by
  induction d with
  | nil =>
      intro e h
      cases h
      exact .nil
  | cons key beyond value rest ih =>
      intro e h
      rw [mapM] at h
      obtain ⟨b, hb, h⟩ := bind_eq_ok.mp h
      obtain ⟨rest', hrest, he⟩ := bind_eq_ok.mp h
      cases he
      exact .cons ⟨rfl, hb⟩ (ih hrest)

theorem find?_of_mapM {f : String → α → Except ε β} {lo : Option String} {d : Entries α lo} :
    ∀ {e : Entries β lo}, d.mapM f = .ok e → ∀ k,
      Option.Rel (fun a b => f k a = .ok b) (d.find? k) (e.find? k) := by
  induction d with
  | nil =>
      intro e h k
      cases h
      exact .none
  | cons key beyond value rest ih =>
      intro e h k
      rw [mapM] at h
      obtain ⟨b, hb, h⟩ := bind_eq_ok.mp h
      obtain ⟨rest', hrest, he⟩ := bind_eq_ok.mp h
      cases he
      rw [find?, find?]
      by_cases hk : k = key
      · rw [if_pos hk, if_pos hk, hk]
        exact .some hb
      · rw [if_neg hk, if_neg hk]
        exact ih hrest k

/-- What is done to every image is done to the table of images. -/
theorem mapM_comp {γ : Type} (f : String → α → Except ε β) (g : β → γ) {lo : Option String}
    (d : Entries α lo) : (d.mapM fun k a => g <$> f k a) = map g <$> d.mapM f := by
  induction d with
  | nil => rfl
  | cons key beyond value rest ih =>
      rw [mapM, mapM, ih]
      cases f key value with
      | error e => rfl
      | ok b => cases rest.mapM f <;> rfl

/-- Replacing the values of a table twice is replacing each of them twice. -/
theorem map_map {γ : Type} {f : β → γ} {g : α → β} {h : α → γ} {lo : Option String}
    {d : Entries α lo} (hcomp : ∀ p ∈ d.toList, f (g p.2) = h p.2) :
    (d.map g).map f = d.map h := by
  induction d with
  | nil => rfl
  | cons key beyond value rest ih =>
      rw [map, map, map, hcomp (key, value) List.mem_cons_self,
        ih fun p hp => hcomp p (List.mem_cons_of_mem _ hp)]

theorem map_eq_self {f : α → α} {lo : Option String} {d : Entries α lo}
    (h : ∀ p ∈ d.toList, f p.2 = p.2) : d.map f = d := by
  induction d with
  | nil => rfl
  | cons key beyond value rest ih =>
      rw [map, h (key, value) List.mem_cons_self, ih fun p hp => h p (List.mem_cons_of_mem _ hp)]

/-- A function that takes the values of one table to those of another gives the table. -/
theorem mapM_map {γ : Type} {f : String → α → Except ε β} {g : γ → α} {h : γ → β}
    {lo : Option String} {d : Entries γ lo} (hval : ∀ p ∈ d.toList, f p.1 (g p.2) = .ok (h p.2)) :
    (d.map g).mapM f = .ok (d.map h) := by
  induction d with
  | nil => rfl
  | cons key beyond value rest ih =>
      rw [map, map, mapM, hval (key, value) List.mem_cons_self,
        ih fun p hp => hval p (List.mem_cons_of_mem _ hp)]
      rfl

/-- A table whose values come back from a map comes back itself. -/
theorem mapM_map_eq_self {f : String → α → Except ε β} {g : β → α} {lo : Option String}
    {e : Entries β lo} (h : ∀ p ∈ e.toList, f p.1 (g p.2) = .ok p.2) :
    (e.map g).mapM f = .ok e := by
  rw [mapM_map (h := id) h, map_eq_self fun _ _ => rfl]

end Entries

namespace Tree

variable {α β ε : Type}

/-- What holds of a leaf, of a list if it does of its items, and of a record if it does of its
fields, holds of every tree. -/
@[elab_as_elim, induction_eliminator]
theorem induction {motive : Tree α → Prop} (leaf : ∀ a, motive (.leaf a))
    (list : ∀ items, (∀ t ∈ items, motive t) → motive (.list items))
    (record : ∀ fields, (∀ p ∈ fields.toList, motive p.2) → motive (.record fields))
    (t : Tree α) : motive t := by
  refine Tree.rec (motive_1 := motive) (motive_2 := fun items => ∀ t ∈ items, motive t)
    (motive_3 := fun _ fields => ∀ p ∈ fields.toList, motive p.2) leaf list record ?_ ?_ ?_ ?_ t
  · simp
  · intro t items ht hitems s hs
    rcases List.mem_cons.mp hs with rfl | hrest
    · exact ht
    · exact hitems s hrest
  · simp [Entries.toList]
  · intro lo key beyond t rest ht hrest p hp
    rcases List.mem_cons.mp hp with rfl | hlater
    · exact ht
    · exact hrest p hlater

mutual

/-- The leaves in reading order. -/
def leaves : Tree α → List α
  | .leaf a => [a]
  | .list items => leavesOfItems items
  | .record fields => leavesOfFields fields
termination_by structural t => t

def leavesOfItems : List (Tree α) → List α
  | [] => []
  | t :: ts => leaves t ++ leavesOfItems ts
termination_by structural ts => ts

def leavesOfFields : {lo : Option String} → Entries (Tree α) lo → List α
  | _, .nil => []
  | _, .cons _ _ t rest => leaves t ++ leavesOfFields rest
termination_by structural _ fields => fields

end

@[simp] theorem leaves_leaf (a : α) : (leaf a).leaves = [a] := rfl

@[simp] theorem leaves_list (items : List (Tree α)) :
    (list items).leaves = items.flatMap leaves := by
  have hitems : leavesOfItems items = items.flatMap leaves := by
    induction items with
    | nil => rfl
    | cons t ts ih => rw [leavesOfItems, ih, List.flatMap_cons]
  exact hitems

@[simp] theorem leaves_record (fields : Dict (Tree α)) :
    (record fields).leaves = fields.toList.flatMap fun p => p.2.leaves := by
  have hfields : ∀ {lo : Option String} (d : Entries (Tree α) lo),
      leavesOfFields d = d.toList.flatMap fun p => p.2.leaves := by
    intro lo d
    induction d with
    | nil => rfl
    | cons key beyond t rest ih => rw [leavesOfFields, ih, Entries.toList, List.flatMap_cons]
  exact hfields fields

theorem mapM_leaf (f : α → Except ε β) (a : α) : (leaf a).mapM f = leaf <$> f a := rfl

theorem mapM_list (f : α → Except ε β) (items : List (Tree α)) :
    (list items).mapM f = list <$> items.mapM (mapM f) := by
  rw [mapM, mapItemsM_eq]

theorem mapM_record (f : α → Except ε β) (fields : Dict (Tree α)) :
    (record fields).mapM f = record <$> fields.mapM fun _ => mapM f := by
  rw [mapM, mapFieldsM_eq]

theorem map_list (f : α → β) (items : List (Tree α)) :
    (list items).map f = list (items.map (map f)) := by
  rw [map, mapItems_eq]

theorem map_record (f : α → β) (fields : Dict (Tree α)) :
    (record fields).map f = record (fields.map (map f)) := by
  rw [map, mapFields_eq]

/-- Lists of lists put together are related if their members are. -/
theorem forall₂_flatMap {γ δ : Type} {R : α → β → Prop} {S : γ → δ → Prop} {f : α → List γ}
    {g : β → List δ} {as : List α} {bs : List β} (h : List.Forall₂ R as bs)
    (hmem : ∀ a ∈ as, ∀ b, R a b → List.Forall₂ S (f a) (g b)) :
    List.Forall₂ S (as.flatMap f) (bs.flatMap g) := by
  induction h with
  | nil => exact .nil
  | cons hab _ ih =>
      rw [List.flatMap_cons, List.flatMap_cons]
      exact List.rel_append (hmem _ List.mem_cons_self _ hab)
        (ih fun a ha => hmem a (List.mem_cons_of_mem _ ha))

/-- **The leaves of a tree that `mapM` gives are the images of the leaves, in order.** -/
theorem forall₂_leaves {f : α → Except ε β} {t : Tree α} :
    ∀ {u : Tree β}, t.mapM f = .ok u → List.Forall₂ (fun a b => f a = .ok b) t.leaves u.leaves := by
  induction t with
  | leaf a =>
      intro u h
      obtain ⟨b, hb, rfl⟩ := map_eq_ok.mp h
      exact .cons hb .nil
  | list items ih =>
      intro u h
      rw [mapM_list] at h
      obtain ⟨items', hitems, rfl⟩ := map_eq_ok.mp h
      rw [leaves_list, leaves_list]
      exact forall₂_flatMap (mapM_eq_ok_iff.mp hitems) fun t ht u hu => ih t ht hu
  | record fields ih =>
      intro u h
      rw [mapM_record] at h
      obtain ⟨fields', hfields, rfl⟩ := map_eq_ok.mp h
      rw [leaves_record, leaves_record]
      exact forall₂_flatMap (Entries.forall₂_of_mapM hfields) fun p hp q hq => ih p hp hq.2

/-- Replacing the leaves of a tree twice is replacing each of them twice. -/
theorem map_map {γ : Type} (f : β → γ) (g : α → β) (t : Tree α) :
    (t.map g).map f = t.map (f ∘ g) := by
  induction t with
  | leaf a => rfl
  | list items ih =>
      rw [map_list, map_list, map_list, List.map_map]
      exact congrArg list (List.map_congr_left ih)
  | record fields ih =>
      rw [map_record, map_record, map_record]
      exact congrArg record (Entries.map_map ih)

@[simp] theorem map_id (t : Tree α) : t.map id = t := by
  induction t with
  | leaf a => rfl
  | list items ih =>
      rw [map_list]
      exact congrArg list ((List.map_congr_left ih).trans (List.map_id items))
  | record fields ih =>
      rw [map_record]
      exact congrArg record (Entries.map_eq_self ih)

/-- **A function that takes the leaves of one tree to those of another gives the tree.** -/
theorem mapM_map {γ : Type} {f : α → Except ε β} {g : γ → α} {h : γ → β} {t : Tree γ}
    (hleaf : ∀ c ∈ t.leaves, f (g c) = .ok (h c)) : (t.map g).mapM f = .ok (t.map h) := by
  induction t with
  | leaf c =>
      rw [map, mapM_leaf, hleaf c List.mem_cons_self]
      rfl
  | list items ih =>
      have hitems : (items.map (map g)).mapM (mapM f) = .ok (items.map (map h)) := by
        rw [mapM_eq_ok_iff, List.forall₂_map_left_iff, List.forall₂_map_right_iff,
          List.forall₂_same]
        intro t ht
        refine ih t ht fun c hc => hleaf c ?_
        rw [leaves_list]
        exact List.mem_flatMap_of_mem ht hc
      rw [map_list, map_list, mapM_list, hitems]
      rfl
  | record fields ih =>
      have hfields : (fields.map (map g)).mapM (fun _ => mapM f) = .ok (fields.map (map h)) := by
        refine Entries.mapM_map fun p hp => ih p hp fun c hc => hleaf c ?_
        rw [leaves_record]
        exact List.mem_flatMap_of_mem hp hc
      rw [map_record, map_record, mapM_record, hfields]
      rfl

/-- A tree whose leaves come back from a map comes back itself. -/
theorem mapM_map_eq_self {f : α → Except ε β} {g : β → α} {u : Tree β}
    (h : ∀ b ∈ u.leaves, f (g b) = .ok b) : (u.map g).mapM f = .ok u := by
  rw [mapM_map (h := id) h, map_id]

/-- A function that gives an image for every leaf gives the tree of images. -/
theorem mapM_eq_map {f : α → Except ε β} {h : α → β} {t : Tree α}
    (hleaf : ∀ a ∈ t.leaves, f a = .ok (h a)) : t.mapM f = .ok (t.map h) := by
  rw [← mapM_map (g := id) hleaf, map_id]

/-- A tree is gone through with the images of its leaves if all of them may have one. -/
theorem mapM_eq_map_iff {f : α → Except ε β} {p : α → Prop} {g : α → β}
    (hf : ∀ a b, f a = .ok b ↔ p a ∧ g a = b) {t : Tree α} {u : Tree β} :
    t.mapM f = .ok u ↔ (∀ a ∈ t.leaves, p a) ∧ t.map g = u := by
  have himage : (∀ a ∈ t.leaves, p a) → t.mapM f = .ok (t.map g) := fun hp =>
    mapM_eq_map fun a ha => (hf a _).mpr ⟨hp a ha, rfl⟩
  constructor
  · intro h
    have hleaves := forall₂_leaves h
    simp only [hf] at hleaves
    have hp := ((List.forall₂_and_left _ _).mp hleaves).1
    cases h.symm.trans (himage hp)
    exact ⟨hp, rfl⟩
  · rintro ⟨hp, rfl⟩
    exact himage hp

end Tree

end ItemStore
