/-
Tables as finite maps.

`Dict.lean` ends with the two facts that make a table a map: what a look-up finds after an
insertion, and that tables with the same look-ups are equal.  Everything the other proofs
ask of a table is derived from those here: its list of entries is its graph, its keys are
where it is defined, and the three ways of putting many entries into a table — a fold of
insertions, `union` and `mergeWith` — are all the same extension of the map as long as the
entries agree among themselves.
-/
import Mathlib.Data.List.Nodup
import ItemStore.Dict
import ItemStore.Expression.Basic

namespace ItemStore.Entries

variable {α : Type}

/-! ### Entries and keys -/

/-- Every key of a table lies beyond its bound. -/
theorem beyond_of_mem_toList {lo : Option String} (d : Entries α lo) {k : String} {a : α}
    (h : (k, a) ∈ d.toList) : Beyond lo k := by
  induction d with
  | nil => simp [toList] at h
  | cons key beyond value rest ih =>
      rw [toList] at h
      rcases List.mem_cons.mp h with he | hr
      · cases he
        exact beyond
      · have hk : key < k := (ih hr).lt
        intro bound hb
        exact String.lt_trans (beyond bound hb) hk

/-- The entries of a table are the graph of its look-up. -/
theorem mem_toList_iff {lo : Option String} (d : Entries α lo) {k : String} {a : α} :
    (k, a) ∈ d.toList ↔ d.find? k = some a := by
  induction d with
  | nil => simp [toList]
  | cons key beyond value rest ih =>
      rw [toList, find?, List.mem_cons]
      by_cases hk : k = key
      · subst hk
        have habsent : (k, a) ∉ rest.toList := by
          intro hmem
          exact String.lt_irrefl k (beyond_of_mem_toList rest hmem).lt
        simp [habsent, eq_comm]
      · rw [if_neg hk, ← ih]
        simp [hk]

theorem mem_keys_iff {lo : Option String} (d : Entries α lo) {k : String} :
    k ∈ d.keys ↔ ∃ a, d.find? k = some a := by
  simp only [keys, List.mem_map, Prod.exists]
  constructor
  · rintro ⟨k', a, hmem, rfl⟩
    exact ⟨a, (mem_toList_iff d).mp hmem⟩
  · rintro ⟨a, ha⟩
    exact ⟨k, a, (mem_toList_iff d).mpr ha, rfl⟩

theorem not_mem_keys_iff {lo : Option String} (d : Entries α lo) {k : String} :
    k ∉ d.keys ↔ d.find? k = none := by
  rw [mem_keys_iff, ← not_iff_not, not_not, ← Option.isSome_iff_exists,
    Option.isSome_iff_ne_none]

/-- No key comes twice. -/
theorem keys_nodup {lo : Option String} (d : Entries α lo) : d.keys.Nodup := by
  induction d with
  | nil => simp [keys, toList]
  | cons key beyond value rest ih =>
      have hkey : key ∉ rest.keys := by
        intro hmem
        obtain ⟨a, ha⟩ := (mem_keys_iff rest).mp hmem
        exact String.lt_irrefl key
          (beyond_of_mem_toList rest ((mem_toList_iff rest).mpr ha)).lt
      exact List.nodup_cons.mpr ⟨hkey, ih⟩

theorem length_keys {lo : Option String} (d : Entries α lo) : d.keys.length = d.size := by
  simp [keys, size]

theorem mem_keys_insert (d : Dict α) (k : String) (a : α) {k' : String} :
    k' ∈ (d.insert k a).keys ↔ k' = k ∨ k' ∈ d.keys := by
  rw [mem_keys_iff, mem_keys_iff, find?_insert]
  by_cases h : k' = k
  · simp [h]
  · simp [h]

@[simp] theorem toList_insert_empty (k : String) (a : α) :
    (insert (∅ : Dict α) k a).toList = [(k, a)] := rfl

/-! ### Tables with the same keys -/

@[simp] theorem find?_map {β : Type} (f : α → β) {lo : Option String} (d : Entries α lo) (k : String) :
    (d.map f).find? k = (d.find? k).map f := by
  induction d with
  | nil => rfl
  | cons key beyond value rest ih =>
      rw [map, find?, find?, ih]
      split <;> rfl

/-- What a table binds a key to, found among its entries. -/
theorem filterMap_toList {β : Type} (f : α → β) {lo : Option String} (d : Entries α lo)
    (k : String) : (d.toList.map fun (k', a) => (k', f a)).filterMap
      (fun m => if m.1 = k then some m.2 else none) = ((d.find? k).map f).toList := by
  induction d with
  | nil => rfl
  | cons key beyond value rest ih =>
      rw [toList, find?, List.map_cons, List.filterMap_cons, ih]
      by_cases hk : k = key
      · subst hk
        have habsent : rest.find? k = none := rest.find?_eq_none_of_le (by simp) (by simp)
        simp [habsent]
      · simp [hk, Ne.symm hk]

theorem keys_map {β : Type} (f : α → β) {lo : Option String} (d : Entries α lo) :
    (d.map f).keys = d.keys := by
  induction d with
  | nil => rfl
  | cons key beyond value rest ih => exact congrArg (key :: ·) ih

/-- Tables that bind the same keys list them alike. -/
theorem keys_ext {β : Type} {d : Dict α} {e : Dict β} (h : ∀ k, k ∈ d.keys ↔ k ∈ e.keys) :
    d.keys = e.keys := by
  have hsame : d.map (fun _ => ()) = e.map (fun _ => ()) := by
    refine ext fun k => ?_
    have hk := h k
    rw [mem_keys_iff, mem_keys_iff, ← Option.isSome_iff_exists, ← Option.isSome_iff_exists] at hk
    rw [find?_map, find?_map]
    cases hd : d.find? k <;> cases he : e.find? k <;> simp_all
  rw [← keys_map (fun _ => ()) d, hsame, keys_map]

theorem keys_insert_congr {β : Type} {d : Dict α} {e : Dict β} (h : d.keys = e.keys) (k : String)
    (a : α) (b : β) : (d.insert k a).keys = (e.insert k b).keys := by
  refine keys_ext fun k' => ?_
  rw [mem_keys_insert, mem_keys_insert, h]

/-! ### Putting many entries into a table

A fold of insertions lets later entries win.  Where entries with one key agree, which one
wins does not matter, and the result is the map extended by all of them.
-/

/-- The entries put into the table one after another. -/
def extend (d : Dict α) (pairs : List (String × α)) : Dict α :=
  pairs.foldl (fun d p => d.insert p.1 p.2) d

@[simp] theorem extend_nil (d : Dict α) : d.extend [] = d := rfl

@[simp] theorem extend_cons (d : Dict α) (p : String × α) (pairs : List (String × α)) :
    d.extend (p :: pairs) = (d.insert p.1 p.2).extend pairs := rfl

theorem ofList_eq_extend (pairs : List (String × α)) : ofList pairs = extend ∅ pairs := rfl

theorem union_eq_extend (d e : Dict α) : d.union e = d.extend e.toList := rfl

/-- No two entries give one key different values. -/
def Agree (pairs : List (String × α)) : Prop :=
  ∀ k a b, (k, a) ∈ pairs → (k, b) ∈ pairs → a = b

theorem Agree.of_nodup {pairs : List (String × α)} (h : (pairs.map (·.1)).Nodup) :
    Agree pairs := by
  intro k a b ha hb
  have := List.inj_on_of_nodup_map h ha hb rfl
  exact congrArg Prod.snd this

/-- A look-up in a list goes past an entry with another key. -/
theorem lookup_cons (key : String) (a : α) (pairs : List (String × α)) (k : String) :
    ((key, a) :: pairs).lookup k = if k = key then some a else pairs.lookup k := by
  rw [List.lookup_cons]
  by_cases hk : k = key
  · simp [hk]
  · rw [if_neg hk, beq_false_of_ne hk]

/-- Where entries agree, the first one found under a key is every one that is there. -/
theorem Agree.lookup_eq_some_iff {pairs : List (String × α)} (h : Agree pairs) {k : String}
    {a : α} : pairs.lookup k = some a ↔ (k, a) ∈ pairs := by
  have hfound : ∀ {b : α}, pairs.lookup k = some b → (k, b) ∈ pairs := by
    intro b hb
    obtain ⟨before, after, hpairs, -⟩ := List.lookup_eq_some_iff.mp hb
    rw [hpairs]
    exact List.mem_append_right before List.mem_cons_self
  refine ⟨hfound, fun ha => ?_⟩
  cases hb : pairs.lookup k with
  | none =>
      have hdifferent := List.lookup_eq_none_iff.mp hb (k, a) ha
      simp at hdifferent
  | some b => rw [h k b a (hfound hb) ha]

/-- Where entries agree, their keys looked up among them give their values. -/
theorem Agree.mapM_lookup {pairs : List (String × α)} (h : Agree pairs) :
    (pairs.map (·.1)).mapM (fun k => pairs.lookup k) = some (pairs.map (·.2)) := by
  suffices hpart : ∀ part, part ⊆ pairs →
      (part.map (·.1)).mapM (fun k => pairs.lookup k) = some (part.map (·.2)) from
    hpart pairs (List.Subset.refl pairs)
  intro part
  induction part with
  | nil => exact fun _ => rfl
  | cons entry part ih =>
      intro hpart
      obtain ⟨k, a⟩ := entry
      have hfirst : pairs.lookup k = some a := h.lookup_eq_some_iff.mpr (hpart List.mem_cons_self)
      have hrest := ih fun p hp => hpart (List.mem_cons_of_mem _ hp)
      rw [List.map_cons, List.mapM_cons, hfirst, hrest]
      rfl

theorem find?_extend_of_not_mem (pairs : List (String × α)) :
    ∀ (d : Dict α) {k : String}, k ∉ pairs.map (·.1) → (d.extend pairs).find? k = d.find? k := by
  induction pairs with
  | nil => intro d k _; rfl
  | cons p pairs ih =>
      intro d k hk
      rw [List.map_cons, List.mem_cons, not_or] at hk
      rw [extend_cons, ih _ hk.2, find?_insert, if_neg hk.1]

theorem find?_extend_of_mem (pairs : List (String × α)) (agree : Agree pairs) :
    ∀ (d : Dict α) {k : String} {a : α}, (k, a) ∈ pairs → (d.extend pairs).find? k = some a := by
  induction pairs with
  | nil => intro d k a h; simp at h
  | cons p pairs ih =>
      intro d k a hmem
      have hrest : Agree pairs := fun k a b ha hb =>
        agree k a b (List.mem_cons_of_mem _ ha) (List.mem_cons_of_mem _ hb)
      rw [extend_cons]
      by_cases hlater : k ∈ pairs.map (·.1)
      · obtain ⟨q, hq, rfl⟩ := List.mem_map.mp hlater
        rw [agree q.1 a q.2 hmem (List.mem_cons_of_mem _ hq)]
        exact ih hrest _ hq
      · rw [find?_extend_of_not_mem pairs _ hlater, find?_insert]
        rcases List.mem_cons.mp hmem with he | ht
        · rw [← he, if_pos rfl]
        · exact absurd (List.mem_map.mpr ⟨_, ht, rfl⟩) hlater

/-- What an extension binds: the entries put in, and what was bound under other keys. -/
theorem find?_extend_iff {d : Dict α} {pairs : List (String × α)} (agree : Agree pairs)
    {k : String} {a : α} :
    (d.extend pairs).find? k = some a ↔
      (k, a) ∈ pairs ∨ (k ∉ pairs.map (·.1) ∧ d.find? k = some a) := by
  by_cases hk : k ∈ pairs.map (·.1)
  · obtain ⟨⟨k', b⟩, hb, rfl⟩ := List.mem_map.mp hk
    rw [find?_extend_of_mem pairs agree d hb]
    constructor
    · intro he
      cases he
      exact Or.inl hb
    · rintro (ha | ⟨hno, -⟩)
      · rw [agree k' b a hb ha]
      · exact absurd hk hno
  · rw [find?_extend_of_not_mem pairs d hk]
    constructor
    · intro ha
      exact Or.inr ⟨hk, ha⟩
    · rintro (ha | ⟨-, ha⟩)
      · exact absurd (List.mem_map.mpr ⟨_, ha, rfl⟩) hk
      · exact ha

theorem mem_keys_extend (pairs : List (String × α)) :
    ∀ (d : Dict α) {k : String}, k ∈ (d.extend pairs).keys ↔ k ∈ d.keys ∨ k ∈ pairs.map (·.1) := by
  induction pairs with
  | nil => intro d k; simp
  | cons p pairs ih =>
      intro d k
      rw [extend_cons, ih, mem_keys_insert, List.map_cons, List.mem_cons, or_assoc, or_left_comm]

/-- What a table of entries binds is one of them, whether or not they agree. -/
theorem mem_of_find?_ofList (pairs : List (String × α)) {k : String} {a : α}
    (h : (ofList pairs).find? k = some a) : (k, a) ∈ pairs := by
  suffices hextend : ∀ d : Dict α, (d.extend pairs).find? k = some a →
      (k, a) ∈ pairs ∨ d.find? k = some a from
    (hextend ∅ h).resolve_right nofun
  clear h
  induction pairs with
  | nil => exact fun _ => Or.inr
  | cons p pairs ih =>
      intro d hfind
      rcases ih _ hfind with hlater | hbefore
      · exact Or.inl (List.mem_cons_of_mem _ hlater)
      · rw [find?_insert] at hbefore
        split at hbefore
        · next he =>
            cases hbefore
            subst he
            exact Or.inl List.mem_cons_self
        · exact Or.inr hbefore

theorem find?_ofList_iff {pairs : List (String × α)} (agree : Agree pairs) {k : String} {a : α} :
    (ofList pairs).find? k = some a ↔ (k, a) ∈ pairs := by
  rw [ofList_eq_extend, find?_extend_iff agree]
  simp [EmptyCollection.emptyCollection]

theorem mem_keys_ofList {pairs : List (String × α)} (agree : Agree pairs) {k : String} :
    k ∈ (ofList pairs).keys ↔ k ∈ pairs.map (·.1) := by
  rw [mem_keys_iff, List.mem_map]
  constructor
  · rintro ⟨a, ha⟩
    exact ⟨(k, a), (find?_ofList_iff agree).mp ha, rfl⟩
  · rintro ⟨⟨k', a⟩, ha, rfl⟩
    exact ⟨a, (find?_ofList_iff agree).mpr ha⟩

theorem agree_toList (d : Dict α) : Agree d.toList :=
  Agree.of_nodup (keys_nodup d)

/-- A table is the table of its entries. -/
theorem ofList_toList (d : Dict α) : ofList d.toList = d := by
  refine ext fun k => Option.ext fun a => ?_
  rw [find?_ofList_iff (agree_toList d), mem_toList_iff]

/-- Of two bindings in a union the second table's stands. -/
theorem find?_union (d e : Dict α) (k : String) :
    (d.union e).find? k = (e.find? k).or (d.find? k) := by
  rw [union_eq_extend]
  cases he : e.find? k with
  | none =>
      have hk : k ∉ e.toList.map (·.1) := (not_mem_keys_iff e).mpr he
      rw [find?_extend_of_not_mem _ _ hk, Option.none_or]
  | some a =>
      rw [find?_extend_of_mem _ (agree_toList e) _ ((mem_toList_iff e).mpr he), Option.some_or]

/-- Entries that agree are put into a table one after another or as a table of their own. -/
theorem union_ofList {pairs : List (String × α)} (agree : Agree pairs) (d : Dict α) :
    d.union (ofList pairs) = d.extend pairs := by
  refine ext fun k => ?_
  rw [find?_union]
  by_cases hk : k ∈ pairs.map (·.1)
  · obtain ⟨⟨k', a⟩, ha, rfl⟩ := List.mem_map.mp hk
    rw [find?_extend_of_mem pairs agree d ha, (find?_ofList_iff agree).mpr ha, Option.some_or]
  · rw [find?_extend_of_not_mem pairs d hk, ofList_eq_extend, find?_extend_of_not_mem pairs _ hk]
    exact Option.none_or

theorem mem_keys_union (d e : Dict α) {k : String} :
    k ∈ (d.union e).keys ↔ k ∈ d.keys ∨ k ∈ e.keys := by
  rw [mem_keys_iff, mem_keys_iff, mem_keys_iff, find?_union]
  cases e.find? k <;> simp

/-- Keys that are all bound give the same where more is bound. -/
theorem map_find?_mono {d d' : Dict α}
    (hsub : ∀ k a, d.find? k = some a → d'.find? k = some a) {ks : List String} {as : List α}
    (h : ks.map d.find? = as.map some) : ks.map d'.find? = as.map some := by
  rw [← h]
  refine List.map_congr_left fun k hk => ?_
  have hmem : d.find? k ∈ as.map some := h ▸ List.mem_map_of_mem hk
  obtain ⟨a, -, ha⟩ := List.mem_map.mp hmem
  rw [← ha, hsub k a ha.symm]

end ItemStore.Entries

namespace ItemStore.Expression

variable {α : Type} [DecidableEq α]

/-- A merge that succeeds binds what either side binds, and changes no binding. -/
theorem find?_of_mergeWith {clash : String → α → α → Error} {pairs : List (String × α)} :
    ∀ {d d' : Dict α}, mergeWith clash pairs d = .ok d' → ∀ {k : String} {a : α},
      d'.find? k = some a ↔ (k, a) ∈ pairs ∨ d.find? k = some a := by
  induction pairs with
  | nil =>
      intro d d' h k a
      cases h
      simp
  | cons p pairs ih =>
      obtain ⟨key, value⟩ := p
      intro d d' h k a
      rw [mergeWith] at h
      cases hkey : d.find? key with
      | none =>
          rw [hkey] at h
          rw [ih h, Entries.find?_insert, List.mem_cons]
          by_cases hk : k = key
          · subst hk
            simp [hkey, eq_comm, or_comm]
          · simp [hk]
      | some bound =>
          simp only [hkey] at h
          by_cases hb : bound = value
          · subst hb
            rw [if_pos rfl] at h
            rw [ih h, List.mem_cons]
            constructor
            · rintro (hp | hd)
              · exact Or.inl (Or.inr hp)
              · exact Or.inr hd
            · rintro ((he | hp) | hd)
              · cases he
                exact Or.inr hkey
              · exact Or.inl hp
              · exact Or.inr hd
          · rw [if_neg hb] at h
            cases h

/-- A merge of entries that agree fails only at a key that the table binds to something
else. -/
theorem clash_of_mergeWith {clash : String → α → α → Error} {err : Error}
    {pairs : List (String × α)} :
    ∀ {d : Dict α}, Entries.Agree pairs → mergeWith clash pairs d = .error err →
      ∃ k bound a, err = clash k bound a ∧ (k, a) ∈ pairs ∧ d.find? k = some bound ∧
        bound ≠ a := by
  induction pairs with
  | nil =>
      intro d _ h
      cases h
  | cons p pairs ih =>
      obtain ⟨key, value⟩ := p
      intro d agree h
      have hrest : Entries.Agree pairs := fun k a b ha hb =>
        agree k a b (List.mem_cons_of_mem _ ha) (List.mem_cons_of_mem _ hb)
      rw [mergeWith] at h
      cases hkey : d.find? key with
      | none =>
          rw [hkey] at h
          obtain ⟨k, bound, a, herr, hmem, hbound, hne⟩ := ih hrest h
          rw [Entries.find?_insert] at hbound
          split at hbound
          · -- The entry just put in agrees with the rest, so that it is no clash.
            rename_i hk
            cases hbound
            exact absurd (agree k value a (by rw [hk]; exact List.mem_cons_self)
              (List.mem_cons_of_mem _ hmem)) hne
          · exact ⟨k, bound, a, herr, List.mem_cons_of_mem _ hmem, hbound, hne⟩
      | some bound =>
          simp only [hkey] at h
          by_cases hb : bound = value
          · rw [if_pos hb] at h
            obtain ⟨k, bound', a, herr, hmem, hbound, hne⟩ := ih hrest h
            exact ⟨k, bound', a, herr, List.mem_cons_of_mem _ hmem, hbound, hne⟩
          · rw [if_neg hb] at h
            cases h
            exact ⟨key, bound, value, rfl, List.mem_cons_self, hkey, hb⟩

/-- **Merging a table into another is their union**, if neither binds a key of the other to
something else, and the order in which its entries are taken does not matter. -/
theorem mergeWith_perm {clash : String → α → α → Error} {d e : Dict α}
    {pairs : List (String × α)} (perm : pairs.Perm e.toList)
    (agrees : ∀ k a bound, e.find? k = some a → d.find? k = some bound → bound = a) :
    mergeWith clash pairs d = .ok (d.union e) := by
  have hmem : ∀ {k : String} {a : α}, (k, a) ∈ pairs ↔ e.find? k = some a := by
    intro k a
    rw [perm.mem_iff, Entries.mem_toList_iff]
  cases h : mergeWith clash pairs d with
  | error err =>
      have hpairs : Entries.Agree pairs := fun k a b ha hb =>
        Entries.agree_toList e k a b (perm.mem_iff.mp ha) (perm.mem_iff.mp hb)
      obtain ⟨k, bound, a, -, hnew, hbound, hne⟩ := clash_of_mergeWith hpairs h
      exact absurd (agrees k a bound (hmem.mp hnew) hbound) hne
  | ok d' =>
      rw [Except.ok.injEq]
      refine Entries.ext fun k => Option.ext fun a => ?_
      rw [find?_of_mergeWith h, hmem, Entries.find?_union]
      cases he : e.find? k with
      | none => simp
      | some b =>
          rw [Option.some_or, Option.some.injEq]
          refine ⟨fun hor => ?_, Or.inl⟩
          rcases hor with hb | hd
          · exact hb
          · exact (agrees k b a he hd).symm

theorem mergeWith_toList {clash : String → α → α → Error} {d e : Dict α}
    (agrees : ∀ k a bound, e.find? k = some a → d.find? k = some bound → bound = a) :
    mergeWith clash e.toList d = .ok (d.union e) :=
  mergeWith_perm (List.Perm.refl _) agrees

end ItemStore.Expression
