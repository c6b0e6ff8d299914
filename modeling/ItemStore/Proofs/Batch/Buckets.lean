/-
Buckets are a partition of the keys.

They hold the keys in order, none lost and none twice, and no bucket is empty or larger than
it may be.  So there are never more buckets than keys, which is what the bound on the steps
of a fetch needs.

All but the last are full besides, and no other parts of the keys are like that: a list that is
made of such parts is cut in the same places again (`buckets_flatten`).

Nor does it matter whether the members are gone through before they are put into buckets or
bucket by bucket (`mapM_buckets`): the first failure is the same one, and so are the buckets.
-/
import Mathlib.Algebra.BigOperators.Group.List.Basic
import Mathlib.Algebra.GroupWithZero.Nat
import Mathlib.Algebra.Order.Floor.Div
import ItemStore.Batch.Buckets
import ItemStore.Proofs.Except

namespace ItemStore

variable {α : Type}

/-- **The buckets one after another are the keys.** -/
theorem flatten_buckets (size : Nat) (ks : List α) : (buckets size ks).flatten = ks := by
  fun_induction buckets size ks with
  | case1 => rfl
  | case2 k ks ih => rw [List.flatten_cons, ih, List.cons_append, List.take_append_drop]

theorem ne_nil_of_mem_buckets {size : Nat} {ks bucket : List α} (h : bucket ∈ buckets size ks) :
    bucket ≠ [] := by
  fun_induction buckets size ks with
  | case1 => simp at h
  | case2 k ks ih =>
      rcases List.mem_cons.mp h with he | hrest
      · rw [he]
        exact List.cons_ne_nil _ _
      · exact ih hrest

theorem length_le_of_mem_buckets {size : Nat} (hsize : 0 < size) {ks bucket : List α}
    (h : bucket ∈ buckets size ks) : bucket.length ≤ size := by
  fun_induction buckets size ks with
  | case1 => simp at h
  | case2 k ks ih =>
      rcases List.mem_cons.mp h with he | hrest
      · rw [he, List.length_cons]
        have := List.length_take_le (size - 1) ks
        omega
      · exact ih hrest

theorem sum_length_buckets (size : Nat) (ks : List α) :
    ((buckets size ks).map List.length).sum = ks.length := by
  rw [← List.length_flatten, flatten_buckets]

theorem length_buckets_le (size : Nat) (ks : List α) : (buckets size ks).length ≤ ks.length := by
  rw [← sum_length_buckets size ks]
  have hone : ∀ n ∈ (buckets size ks).map List.length, 1 ≤ n := by
    intro n hn
    obtain ⟨bucket, hbucket, rfl⟩ := List.mem_map.mp hn
    exact List.length_pos_of_ne_nil (ne_nil_of_mem_buckets hbucket)
  have := List.length_le_sum_of_one_le _ hone
  rwa [List.length_map] at this

/-! ### The only parts that are full but for the last -/

/-- The keys in parts of a size. -/
structure Partitioned (size : Nat) (ks : List α) (parts : List (List α)) : Prop where
  /-- There are as many parts as it takes for the keys. -/
  length_eq : parts.length = ks.length ⌈/⌉ size
  nonempty : ∀ part ∈ parts, part ≠ []
  /-- A part that another follows is full. -/
  full : ∀ part ∈ parts.dropLast, part.length = size
  last : ∀ part ∈ parts.getLast?, part.length ≤ size
  /-- One after another the parts are the keys. -/
  flatten_eq : parts.flatten = ks

/-- A size of zero counts as one. -/
theorem buckets_max_one (size : Nat) (ks : List α) : buckets (max size 1) ks = buckets size ks := by
  fun_induction buckets size ks with
  | case1 => rw [buckets]
  | case2 k ks ih =>
      have hpred : max size 1 - 1 = size - 1 := by omega
      rw [buckets, hpred, ih]

theorem length_buckets {size : Nat} (hsize : 0 < size) (ks : List α) :
    (buckets size ks).length = ks.length ⌈/⌉ size := by
  fun_induction buckets size ks with
  | case1 => simp
  | case2 k ks ih =>
      rw [List.length_cons, ih, List.length_drop, List.length_cons]
      -- Both sides have the same upper bounds, and these need no division.
      refine eq_of_forall_ge_iff fun count => ?_
      cases count with
      | zero => simp [ceilDiv_le_iff_le_mul hsize]
      | succ count =>
          rw [Nat.succ_le_succ_iff, ceilDiv_le_iff_le_mul hsize, ceilDiv_le_iff_le_mul hsize,
            Nat.mul_succ]
          omega

theorem length_of_mem_dropLast_buckets {size : Nat} (hsize : 0 < size) {ks bucket : List α}
    (h : bucket ∈ (buckets size ks).dropLast) : bucket.length = size := by
  fun_induction buckets size ks with
  | case1 => simp at h
  | case2 k ks ih =>
      by_cases hlast : buckets size (ks.drop (size - 1)) = []
      · rw [hlast] at h
        simp at h
      · rw [List.dropLast_cons_of_ne_nil hlast] at h
        rcases List.mem_cons.mp h with he | hrest
        · -- Another bucket follows, so that the first did not use up the keys.
          have hleft : size - 1 < ks.length := by
            by_contra hnone
            exact hlast (by rw [List.drop_eq_nil_of_le (by omega), buckets])
          rw [he, List.length_cons, List.length_take]
          omega
        · exact ih hrest

/-- **Parts of which all but the last are full are the buckets of the list they make.** -/
theorem buckets_flatten {size : Nat} {parts : List (List α)} (nonempty : ∀ part ∈ parts, part ≠ [])
    (full : ∀ part ∈ parts.dropLast, part.length = size)
    (last : ∀ part ∈ parts.getLast?, part.length ≤ size) : buckets size parts.flatten = parts := by
  induction parts with
  | nil => rw [List.flatten_nil, buckets]
  | cons part parts ih =>
      obtain ⟨k, ks, rfl⟩ := List.exists_cons_of_ne_nil (nonempty part List.mem_cons_self)
      rw [List.flatten_cons, List.cons_append, buckets]
      by_cases hparts : parts = []
      · subst hparts
        have hle : ks.length ≤ size - 1 := by
          have := last (k :: ks) rfl
          rw [List.length_cons] at this
          omega
        rw [List.flatten_nil, List.append_nil, List.take_of_length_le hle,
          List.drop_eq_nil_of_le hle, buckets]
      · rw [List.dropLast_cons_of_ne_nil hparts] at full
        have hlength : ks.length = size - 1 := by
          have := full (k :: ks) List.mem_cons_self
          rw [List.length_cons] at this
          omega
        rw [List.take_left' hlength, List.drop_left' hlength, ih]
        · exact fun part hpart => nonempty part (List.mem_cons_of_mem _ hpart)
        · exact fun part hpart => full part (List.mem_cons_of_mem _ hpart)
        · intro part hpart
          refine last part ?_
          rwa [List.getLast?_cons_of_ne_nil hparts]

/-- **The buckets are the keys in parts of the size, and the only such parts.**  There are as many
as it takes, none is empty, all but the last are full and the last is no larger, and one after
another they are the keys. -/
theorem eq_buckets_iff_partitioned (size : Nat) (ks : List α) (parts : List (List α)) :
    parts = buckets size ks ↔ Partitioned (max size 1) ks parts := by
  have hsize : 0 < max size 1 := by omega
  rw [← buckets_max_one]
  constructor
  · rintro rfl
    exact {
      length_eq := length_buckets hsize ks
      nonempty := fun part hpart => ne_nil_of_mem_buckets hpart
      full := fun part hpart => length_of_mem_dropLast_buckets hsize hpart
      last := fun part hpart => length_le_of_mem_buckets hsize (List.mem_of_getLast? hpart)
      flatten_eq := flatten_buckets _ ks }
  · intro h
    rw [← h.flatten_eq, buckets_flatten h.nonempty h.full h.last]

/-- Two keys of the size zero, and five of the size two, of which the last part is short. -/
theorem eq_buckets_iff_partitioned_short_last :
    buckets 0 ["a", "b"] = [["a"], ["b"]] ∧ Partitioned 1 ["a", "b"] [["a"], ["b"]] ∧
      buckets 2 [1, 2, 3, 4, 5] = [[1, 2], [3, 4], [5]] ∧
      Partitioned 2 [1, 2, 3, 4, 5] [[1, 2], [3, 4], [5]] := by
  have hzero : buckets 0 ["a", "b"] = [["a"], ["b"]] := by simp [buckets]
  have htwo : buckets 2 [1, 2, 3, 4, 5] = [[1, 2], [3, 4], [5]] := by simp [buckets]
  exact ⟨hzero, (eq_buckets_iff_partitioned 0 _ _).mp hzero.symm, htwo,
    (eq_buckets_iff_partitioned 2 _ _).mp htwo.symm⟩

/-! ### Going through buckets -/

/-- Lists that are related member by member have buckets that are. -/
theorem forall₂_buckets {β : Type} {R : α → β → Prop} {size : Nat} {as : List α} {bs : List β}
    (h : List.Forall₂ R as bs) :
    List.Forall₂ (List.Forall₂ R) (buckets size as) (buckets size bs) := by
  fun_induction buckets size as generalizing bs with
  | case1 =>
      cases h
      rw [buckets]
      exact .nil
  | case2 a as ih =>
      cases h with
      | cons hfirst hrest =>
          rw [buckets]
          exact .cons (.cons hfirst (List.forall₂_take _ hrest)) (ih (List.forall₂_drop _ hrest))

/-- **Going through a list bucket by bucket gives the buckets of what going through the list
gives**, and fails as that does. -/
theorem mapM_buckets {ε β : Type} (f : α → Except ε β) (size : Nat) (as : List α) :
    (buckets size as).mapM (List.mapM f) = buckets size <$> as.mapM f := by
  cases hall : as.mapM f with
  | ok bs =>
      refine mapM_eq_ok_iff.mpr ((forall₂_buckets (mapM_eq_ok_iff.mp hall)).imp ?_)
      exact fun bucket images h => mapM_eq_ok_iff.mpr h
  | error e =>
      have hflat := mapM_flatten f (buckets size as)
      rw [flatten_buckets, hall] at hflat
      cases hnested : (buckets size as).mapM (List.mapM f) with
      | ok bss =>
          rw [hnested] at hflat
          cases hflat
      | error e' =>
          rw [hnested] at hflat
          cases hflat
          rfl

end ItemStore
