/-
The search for a placeholder ends, and it ends at the first text that is free.

`search` is given fuel, a step for each name in use.  The search that is meant knows no such bound:
it has a text and a number, and while the text is not free it goes on to the next number.  `Finds`
is that search, and nothing in it gets smaller.  What makes it end is a count.  No two of its texts
are the same (`candidate_injective`), so each one that is passed over is paid for by another name
in use, and among one more of them than there are names one is free (`exists_candidate_not_mem`).

The same count says how large the number gets: at most one more than there are names in use.  So
it makes no difference that the number is a word of 32 bits with a sign, as long as the names can
be counted with one.
-/
import Mathlib.Algebra.GroupWithZero.Nat
import Mathlib.Order.Bounds.Basic
import ItemStore.Proofs.Placeholder

namespace ItemStore.Placeholder

/-! ### The search without a bound -/

section Search

variable {ν : Type} [ToString ν] [Add ν] [OfNat ν 1]

/-- A base with a number after it. -/
def numbered (base : String) (k : ν) : String :=
  base ++ "_" ++ toString k

/-- The search from a text and its number on: how many texts it passes over, and what it finds. -/
inductive Finds (free : String → Prop) (base : String) :
    (text : String) → (number : ν) → (passed : Nat) → (found : String) → Prop
  | here {text : String} {number : ν} (hfree : free text) : Finds free base text number 0 text
  | next {text found : String} {number : ν} {passed : Nat} (htaken : ¬free text)
      (rest : Finds free base (numbered base (number + 1)) (number + 1) passed found) :
      Finds free base text number (passed + 1) found

/-- Counted with numbers of this type, the search for a base finds `p` past so many texts, and it
ends in no other way. -/
def EndsWith (ν : Type) [ToString ν] [Add ν] [OfNat ν 1] (free : String → Prop) (base p : String)
    (passed : Nat) : Prop :=
  ∀ m q, Finds free base base (1 : ν) m q ↔ m = passed ∧ q = p

variable {free : String → Prop} {base : String}

/-- The search ends in one way at most. -/
theorem Finds.unique {text q q' : String} {number : ν} {m m' : Nat}
    (h : Finds free base text number m q) (h' : Finds free base text number m' q') :
    m = m' ∧ q = q' := by
  induction h generalizing m' with
  | here hfree =>
      cases h' with
      | here => exact ⟨rfl, rfl⟩
      | next htaken => exact absurd hfree htaken
  | next htaken rest ih =>
      cases h' with
      | here hfree => exact absurd hfree htaken
      | next _ rest' =>
          obtain ⟨rfl, rfl⟩ := ih rest'
          exact ⟨rfl, rfl⟩

/-- A search comes to the first candidate that is free if its numbers take it that far. -/
theorem finds_of_first (num : Nat → ν) {m : Nat}
    (counts : ∀ j < m,
      num j + 1 = num (j + 1) ∧ numbered base (num (j + 1)) = candidate base (j + 1))
    (hfree : free (candidate base m)) (hbefore : ∀ j < m, ¬free (candidate base j)) :
    ∀ {passed n : Nat}, n + passed = m →
      Finds free base (candidate base n) (num n) passed (candidate base m) := by
  intro passed
  induction passed with
  | zero =>
      intro n hn
      obtain rfl : n = m := by omega
      exact .here hfree
  | succ passed ih =>
      intro n hn
      obtain ⟨hnumber, htext⟩ := counts n (by omega)
      refine .next (hbefore n (by omega)) ?_
      rw [hnumber, htext]
      exact ih (by omega)

theorem endsWith_of_first (num : Nat → ν) (hone : num 0 = 1) {m : Nat}
    (counts : ∀ j < m,
      num j + 1 = num (j + 1) ∧ numbered base (num (j + 1)) = candidate base (j + 1))
    (hfree : free (candidate base m)) (hbefore : ∀ j < m, ¬free (candidate base j)) :
    EndsWith ν free base (candidate base m) m := by
  have hfinds : Finds free base base (1 : ν) m (candidate base m) := by
    rw [← hone]
    exact finds_of_first num counts hfree hbefore (Nat.zero_add m)
  intro m' q
  constructor
  · exact fun h => h.unique hfinds
  · rintro ⟨rfl, rfl⟩
    exact hfinds

end Search

/-! ### The first candidate that is free -/

/-- What is found beside so many names in use. -/
structure FirstFree (free : String → Prop) (base : String) (inUse : Nat) (p : String) : Prop where
  /-- The search ends with it, past no more texts than there are names in use, and so does a search
  that counts in 32 bits if it can count the names. -/
  ends : ∃ passed ≤ inUse, EndsWith Nat free base p passed ∧
    (inUse + 1 < 2 ^ 31 → EndsWith Int32 free base p passed)
  isFree : free p
  /-- A base that is free has no number put after it. -/
  plain : free base → p = base
  /-- Any other has the least number from two on that makes it free. -/
  least : ¬free base →
    ∃ k ≤ inUse + 1, IsLeast {k : Nat | 2 ≤ k ∧ free (numbered base k)} k ∧ p = numbered base k

variable {free : String → Prop} {base : String} {m inUse : Nat}

theorem endsWith_nat (hfree : free (candidate base m))
    (hbefore : ∀ j < m, ¬free (candidate base j)) :
    EndsWith Nat free base (candidate base m) m :=
  endsWith_of_first Nat.succ rfl (fun _ _ => ⟨rfl, rfl⟩) hfree hbefore

/-- A number that fits into 32 bits is written as it is. -/
theorem numbered_ofNat (base : String) {k : Nat} (hk : k < 2 ^ 31) :
    numbered base (Int32.ofNat k) = numbered base k := by
  have htext : toString (Int32.ofNat k) = toString k := by
    show toString (Int32.ofNat k).toInt = _
    rw [Int32.toInt_ofNat_of_lt hk]
    rfl
  rw [numbered, numbered, htext]

theorem endsWith_int32 (hm : m + 1 < 2 ^ 31) (hfree : free (candidate base m))
    (hbefore : ∀ j < m, ¬free (candidate base j)) :
    EndsWith Int32 free base (candidate base m) m := by
  refine endsWith_of_first (fun j => Int32.ofNat (j + 1)) rfl (fun j hj => ?_) hfree hbefore
  exact ⟨(Int32.ofNat_add (j + 1) 1).symm, numbered_ofNat base (by omega)⟩

/-- The number of the first candidate that is free is the least one that will do. -/
theorem isLeast_of_first (hfree : free (candidate base (m + 1)))
    (hbefore : ∀ j < m + 1, ¬free (candidate base j)) :
    IsLeast {k : Nat | 2 ≤ k ∧ free (numbered base k)} (m + 2) := by
  refine ⟨⟨by omega, hfree⟩, ?_⟩
  rintro k ⟨htwo, hk⟩
  by_contra hlt
  obtain ⟨j, rfl⟩ : ∃ j, k = j + 2 := ⟨k - 2, by omega⟩
  exact hbefore (j + 1) (by omega) hk

/-- The first candidate that is free is what is found, if there is a free one among one more
candidates than there are names in use. -/
theorem firstFree_of_first (hfree : free (candidate base m))
    (hbefore : ∀ j < m, ¬free (candidate base j))
    (hexists : ∃ n ≤ inUse, free (candidate base n)) :
    FirstFree free base inUse (candidate base m) := by
  have hbound : m ≤ inUse := by
    obtain ⟨n, hn, hnfree⟩ := hexists
    have : ¬n < m := fun h => hbefore n h hnfree
    omega
  refine {
    ends := ⟨m, hbound, endsWith_nat hfree hbefore, fun hroom => ?_⟩
    isFree := hfree
    plain := fun hbase => ?_
    least := fun hbase => ?_ }
  · exact endsWith_int32 (by omega) hfree hbefore
  · cases m with
    | zero => rfl
    | succ m => exact absurd hbase (hbefore 0 (by omega))
  · cases m with
    | zero => exact absurd hfree hbase
    | succ m => exact ⟨m + 2, by omega, isLeast_of_first hfree hbefore, rfl⟩

theorem firstFree_forValue (path : String) (taken : List String) :
    FirstFree (· ∉ taken) (ofPath path) taken.length (forValue path taken) := by
  obtain ⟨m, hm, hfree, hbefore⟩ := forValue_spec path taken
  rw [hm]
  exact firstFree_of_first hfree (fun j hj => not_not.mpr (hbefore j hj))
    (exists_candidate_not_mem (ofPath path) taken)

theorem firstFree_forName (name : String) (names : Dict String) :
    FirstFree (fun p => names.find? p = none ∨ names.find? p = some name) (ofName name)
      names.size (forName name names) := by
  obtain ⟨m, hm, hfree, hbefore⟩ := forName_spec name names
  rw [hm]
  refine firstFree_of_first hfree (fun j hj => ?_) ?_
  · obtain ⟨other, hother, hne⟩ := hbefore j hj
    simp [hother, hne]
  · obtain ⟨n, hn, hunused⟩ := exists_candidate_not_mem (ofName name) names.keys
    rw [Entries.length_keys] at hn
    exact ⟨n, hn, Or.inl ((Entries.not_mem_keys_iff names).mp hunused)⟩

/-- **Every search ends, and at the first text that is free**: the base, or the base with the least
number from two on.  For a value a text is free that is not in use, and for a name one that stands
for nothing or for this very name. -/
theorem searches_end_at_first_free :
    (∀ (path : String) (taken : List String),
      FirstFree (· ∉ taken) (ofPath path) taken.length (forValue path taken)) ∧
    ∀ (name : String) (names : Dict String),
      FirstFree (fun p => names.find? p = none ∨ names.find? p = some name) (ofName name)
        names.size (forName name names) :=
  ⟨firstFree_forValue, firstFree_forName⟩

/-- The number of a value goes into a gap, past texts that are no candidates, and that of a name
goes to a text that has it already. -/
theorem searches_end_at_first_free_gap :
    let taken := [":a", ":a_b_3", ":a_b"]
    let names := Entries.ofList [("#ab", "ab"), ("#ab_2", "a.b"), ("#ab_3", "a-b")]
    (¬ofPath "a.b" ∉ taken ∧ ∃ k ≤ 4, IsLeast {k : Nat | 2 ≤ k ∧ numbered ":a_b" k ∉ taken} k ∧
      ":a_b_2" = numbered ":a_b" k) ∧
    names.size + 1 < 2 ^ 31 ∧ ∃ passed ≤ 3,
      EndsWith Int32 (fun p => names.find? p = none ∨ names.find? p = some "a-b") "#ab" "#ab_3"
        passed := by
  intro taken names
  have htaken : ¬ofPath "a.b" ∉ taken := by decide
  have hvalue : forValue "a.b" taken = ":a_b_2" := by decide
  have hname : forName "a-b" names = "#ab_3" := by decide
  have hroom : names.size + 1 < 2 ^ 31 := by decide
  refine ⟨⟨htaken, ?_⟩, hroom, ?_⟩
  · rw [← hvalue]
    exact (searches_end_at_first_free.1 "a.b" taken).least htaken
  · obtain ⟨passed, hpassed, -, hends⟩ := (searches_end_at_first_free.2 "a-b" names).ends
    rw [hname] at hends
    exact ⟨passed, hpassed, hends hroom⟩

end ItemStore.Placeholder
