/-
Placeholders are fresh, and names keep theirs.

The candidates for a placeholder are pairwise different (`candidate_injective`), so one
more of them than there are placeholders in use can not all be in use, and the search
finds the first that is free.  For values that is all there is to it: the placeholder is
none of those in use, and all earlier candidates are.

For names there is an invariant to keep.  A table is `Settled` when every name in it is
bound at the first of its candidates that no other name has taken.  In such a table a name
has one placeholder only, and binding what the search finds settles the table anew.
Suffixes that look like the end of a longer name do no harm, since nothing here ever takes
a placeholder apart.
-/
import Mathlib.Data.List.Nodup
import Mathlib.Data.List.Perm.Subperm
import ItemStore.Expression.Placeholder
import ItemStore.Proofs.Dict

namespace ItemStore.Placeholder

/-! ### Candidates -/

/-- What the `n`-th candidate has after the base. -/
def suffix : Nat → List Char
  | 0 => []
  | n + 1 => '_' :: (Nat.repr (n + 2)).toList

theorem toList_candidate (base : String) (n : Nat) :
    (candidate base n).toList = base.toList ++ suffix n := by
  cases n with
  | zero => simp [candidate, suffix]
  | succ n => simp [candidate, suffix, String.toList_append, ← Nat.toString_eq_repr]

theorem suffix_injective : Function.Injective suffix := by
  intro m n h
  cases m with
  | zero =>
      cases n with
      | zero => rfl
      | succ n => simp [suffix] at h
  | succ m =>
      cases n with
      | zero => simp [suffix] at h
      | succ n =>
          rw [suffix, suffix, List.cons.injEq, Nat.toList_repr, Nat.toList_repr] at h
          have hvalue := congrArg (fun digits => Nat.ofDigitChars 10 digits 0) h.2
          simpa using hvalue

/-- No two candidates are the same. -/
theorem candidate_injective (base : String) : Function.Injective (candidate base) := by
  intro m n h
  have hlist := congrArg String.toList h
  rw [toList_candidate, toList_candidate] at hlist
  exact suffix_injective (List.append_cancel_left hlist)

theorem isWord_of_mem_suffix {n : Nat} {c : Char} (h : c ∈ suffix n) : Text.isWord c = true := by
  cases n with
  | zero => simp [suffix] at h
  | succ n =>
      rcases List.mem_cons.mp h with he | hdigit
      · rw [he]
        rfl
      · have hc : c.isDigit = true := by
          rw [Nat.toList_repr] at hdigit
          exact Nat.isDigit_of_mem_toDigits (by omega) (by omega) hdigit
        simp [Text.isWord, Char.isAlphanum, hc]

/-! ### The search -/

/-- The search stops at the first candidate that is free, if one comes before its fuel is
used up. -/
theorem search_spec (free : String → Bool) (base : String) :
    ∀ (fuel n : Nat), (∃ m ≤ fuel, free (candidate base (n + m)) = true) →
      ∃ m, search free base fuel n = candidate base (n + m) ∧
        free (candidate base (n + m)) = true ∧ ∀ j < m, free (candidate base (n + j)) = false := by
  intro fuel
  induction fuel with
  | zero =>
      rintro n ⟨m, hm, hfree⟩
      obtain rfl : m = 0 := by omega
      exact ⟨0, rfl, hfree, by simp⟩
  | succ fuel ih =>
      rintro n ⟨m, hm, hfree⟩
      rw [search]
      by_cases hn : free (candidate base n) = true
      · rw [if_pos hn]
        exact ⟨0, rfl, hn, by simp⟩
      · rw [if_neg hn]
        have hpos : m ≠ 0 := by
          rintro rfl
          exact hn hfree
        obtain ⟨k, hk, hkfree, hbefore⟩ := ih (n + 1) ⟨m - 1, by omega, by
          rwa [show n + 1 + (m - 1) = n + m by omega]⟩
        refine ⟨k + 1, by rw [hk, show n + 1 + k = n + (k + 1) by omega], by
          rwa [show n + (k + 1) = n + 1 + k by omega], ?_⟩
        intro j hj
        cases j with
        | zero => simpa using hn
        | succ j =>
            rw [show n + (j + 1) = n + 1 + j by omega]
            exact hbefore j (by omega)

/-- Of one more candidate than there are texts in use one is not in use. -/
theorem exists_candidate_not_mem (base : String) (taken : List String) :
    ∃ m ≤ taken.length, candidate base m ∉ taken := by
  by_contra hall
  push Not at hall
  have hsubset : (List.range (taken.length + 1)).map (candidate base) ⊆ taken := by
    intro c hc
    obtain ⟨m, hm, rfl⟩ := List.mem_map.mp hc
    exact hall m (by rw [List.mem_range] at hm; omega)
  have hnodup : ((List.range (taken.length + 1)).map (candidate base)).Nodup :=
    List.nodup_range.map (candidate_injective base)
  have := (List.subperm_of_subset hnodup hsubset).length_le
  rw [List.length_map, List.length_range] at this
  omega

/-- **The placeholder of a value is the first candidate that is not in use.** -/
theorem forValue_spec (path : String) (taken : List String) :
    ∃ m, forValue path taken = candidate (ofPath path) m ∧
      candidate (ofPath path) m ∉ taken ∧ ∀ j < m, candidate (ofPath path) j ∈ taken := by
  obtain ⟨m, hm, hfree⟩ := exists_candidate_not_mem (ofPath path) taken
  obtain ⟨k, hk, hkfree, hbefore⟩ := search_spec (fun p => !taken.contains p) (ofPath path)
    taken.length 0 ⟨m, hm, by simpa using hfree⟩
  rw [Nat.zero_add] at hk hkfree
  refine ⟨k, hk, by simpa using hkfree, fun j hj => ?_⟩
  simpa using hbefore j hj

/-- **The placeholder of a name is the first candidate that stands for nothing else.** -/
theorem forName_spec (name : String) (names : Dict String) :
    ∃ m, forName name names = candidate (ofName name) m ∧
      (names.find? (candidate (ofName name) m) = none ∨
        names.find? (candidate (ofName name) m) = some name) ∧
      ∀ j < m, ∃ other, names.find? (candidate (ofName name) j) = some other ∧ other ≠ name := by
  obtain ⟨m, hm, hfree⟩ := exists_candidate_not_mem (ofName name) names.keys
  rw [Entries.length_keys] at hm
  obtain ⟨k, hk, hkfree, hbefore⟩ := search_spec
    (fun p => names.find? p == none || names.find? p == some name) (ofName name) names.size 0
    ⟨m, hm, by simp [(Entries.not_mem_keys_iff names).mp hfree]⟩
  rw [Nat.zero_add] at hk hkfree
  refine ⟨k, hk, by simpa using hkfree, fun j hj => ?_⟩
  have hj' := hbefore j hj
  rw [Nat.zero_add] at hj'
  cases hother : names.find? (candidate (ofName name) j) with
  | none => simp [hother] at hj'
  | some other => exact ⟨other, rfl, by simpa [hother] using hj'⟩

/-- The first candidate that stands for nothing else is the one found. -/
theorem forName_eq_candidate {name : String} {names : Dict String} {m : Nat}
    (hfree : names.find? (candidate (ofName name) m) = none ∨
      names.find? (candidate (ofName name) m) = some name)
    (hbefore : ∀ j < m, ∃ other,
      names.find? (candidate (ofName name) j) = some other ∧ other ≠ name) :
    forName name names = candidate (ofName name) m := by
  have hstops : ∀ {n : Nat}, (names.find? (candidate (ofName name) n) = none ∨
      names.find? (candidate (ofName name) n) = some name) → ¬∃ other,
        names.find? (candidate (ofName name) n) = some other ∧ other ≠ name := by
    rintro n hn ⟨other, hother, hne⟩
    rcases hn with hnone | hsame
    · rw [hnone] at hother
      cases hother
    · rw [hsame] at hother
      cases hother
      exact hne rfl
  obtain ⟨n, hn, hfree', hbefore'⟩ := forName_spec name names
  rcases Nat.lt_trichotomy m n with hlt | rfl | hgt
  · exact absurd (hbefore' m hlt) (hstops hfree)
  · exact hn
  · exact absurd (hbefore n hgt) (hstops hfree')

/-! ### What a placeholder looks like -/

/-- A sigil and then nothing but word characters. -/
def Shaped (sigil : Char) (p : String) : Prop :=
  ∃ word, p.toList = sigil :: word ∧ ∀ c ∈ word, Text.isWord c = true

theorem shaped_candidate {sigil : Char} {base : String} (h : Shaped sigil base) (n : Nat) :
    Shaped sigil (candidate base n) := by
  obtain ⟨word, hbase, hword⟩ := h
  refine ⟨word ++ suffix n, by rw [toList_candidate, hbase, List.cons_append], ?_⟩
  intro c hc
  rcases List.mem_append.mp hc with hw | hs
  · exact hword c hw
  · exact isWord_of_mem_suffix hs

theorem point_not_mem_of_shaped {p : String} (h : Shaped '#' p) : '.' ∉ p.toList := by
  obtain ⟨word, hp, hword⟩ := h
  rw [hp, List.mem_cons, not_or]
  exact ⟨by decide, fun hmem => absurd (hword '.' hmem) (by decide)⟩

theorem toList_clean (s : String) : (Text.clean s).toList = s.toList.filter Text.isWord := by
  rw [Text.clean, String.toList_ofList]

/-- Nothing is left of a text that has no word character. -/
theorem isEmpty_clean_iff {s : String} :
    (Text.clean s).isEmpty = true ↔ ∀ c ∈ s.toList, Text.isWord c = false := by
  rw [String.isEmpty_iff, ← String.toList_eq_nil_iff, toList_clean, List.filter_eq_nil_iff]
  simp only [Bool.not_eq_true]

theorem shaped_ofName (name : String) : Shaped '#' (ofName name) := by
  refine ⟨(Text.clean name).toList, by rw [ofName, String.toList_append]; rfl, ?_⟩
  intro c hc
  rw [toList_clean] at hc
  exact (List.mem_filter.mp hc).2

theorem shaped_ofPath (path : String) : Shaped ':' (ofPath path) := by
  refine ⟨_, by rw [ofPath, String.toList_append]; rfl, ?_⟩
  intro c hc
  rw [toList_clean] at hc
  exact (List.mem_filter.mp hc).2

theorem shaped_forName (name : String) (names : Dict String) :
    Shaped '#' (forName name names) := by
  obtain ⟨m, hm, -, -⟩ := forName_spec name names
  rw [hm]
  exact shaped_candidate (shaped_ofName name) m

theorem shaped_forValue (path : String) (taken : List String) :
    Shaped ':' (forValue path taken) := by
  obtain ⟨m, hm, -, -⟩ := forValue_spec path taken
  rw [hm]
  exact shaped_candidate (shaped_ofPath path) m

/-! ### Values -/

theorem forValue_not_mem (path : String) (taken : List String) :
    forValue path taken ∉ taken := by
  obtain ⟨m, hm, hfree, -⟩ := forValue_spec path taken
  rwa [hm]

section Values

variable {α : Type}

/-- Binding a value changes no binding. -/
theorem find?_insert_forValue {values : Dict α} {q : String} {a : α} (path : String) (b : α)
    (hq : values.find? q = some a) :
    (values.insert (forValue path values.keys) b).find? q = some a := by
  rw [Entries.find?_insert]
  by_cases he : q = forValue path values.keys
  · have hmem : q ∈ values.keys := (Entries.mem_keys_iff values).mpr ⟨a, hq⟩
    rw [he] at hmem
    exact absurd hmem (forValue_not_mem path values.keys)
  · rw [if_neg he, hq]

theorem forValues_not_mem (path : String) (vs : List α) :
    ∀ (taken : List String), ∀ p ∈ (forValues path vs taken).map (·.1), p ∉ taken := by
  induction vs with
  | nil => intro taken p hp; simp [forValues] at hp
  | cons v vs ih =>
      intro taken p hp
      rw [forValues, List.map_cons] at hp
      rcases List.mem_cons.mp hp with he | hlater
      · rw [he]
        exact forValue_not_mem path taken
      · intro hmem
        exact ih _ p hlater (List.mem_cons_of_mem _ hmem)

theorem map_snd_forValues (path : String) (vs : List α) :
    ∀ (taken : List String), (forValues path vs taken).map (·.2) = vs := by
  induction vs with
  | nil => intro taken; rfl
  | cons v vs ih => intro taken; rw [forValues, List.map_cons, ih]

/-- The placeholders of values depend on how many there are, and not on the values. -/
theorem map_fst_forValues_congr {β : Type} (path : String) (vs : List α) :
    ∀ {ws : List β}, vs.length = ws.length → ∀ taken : List String,
      (forValues path vs taken).map (·.1) = (forValues path ws taken).map (·.1) := by
  induction vs with
  | nil =>
      intro ws h taken
      rw [List.eq_nil_of_length_eq_zero h.symm]
      rfl
  | cons v vs ih =>
      intro ws h taken
      cases ws with
      | nil => cases h
      | cons w ws =>
          rw [forValues, forValues, List.map_cons, List.map_cons, ih (Nat.succ.inj h)]

theorem nodup_forValues (path : String) (vs : List α) :
    ∀ (taken : List String), ((forValues path vs taken).map (·.1)).Nodup := by
  induction vs with
  | nil => intro taken; exact List.nodup_nil
  | cons v vs ih =>
      intro taken
      rw [forValues, List.map_cons, List.nodup_cons]
      refine ⟨fun hmem => ?_, ih _⟩
      exact forValues_not_mem path vs _ _ hmem (List.mem_cons_self ..)

/-- Looked up in a table they are put into, the placeholders of values give these in order. -/
theorem map_find?_forValues (path : String) (vs : List α) (taken : List String)
    (values : Dict α) : ((forValues path vs taken).map (·.1)).map
      (values.union (.ofList (forValues path vs taken))).find? = vs.map some := by
  have hvalues := map_snd_forValues path vs taken
  nth_rewrite 3 [← hvalues]
  rw [List.map_map, List.map_map]
  refine List.map_congr_left fun a ha => ?_
  have hagree := Entries.Agree.of_nodup (nodup_forValues path vs taken)
  have hfound : (Entries.ofList (forValues path vs taken)).find? a.1 = some a.2 :=
    (Entries.find?_ofList_iff hagree).mpr ha
  rw [Function.comp, Function.comp, Entries.find?_union, hfound, Option.some_or]

theorem shaped_forValues (path : String) (vs : List α) :
    ∀ (taken : List String), ∀ p ∈ (forValues path vs taken).map (·.1), Shaped ':' p := by
  induction vs with
  | nil => intro taken p hp; simp [forValues] at hp
  | cons v vs ih =>
      intro taken p hp
      rw [forValues, List.map_cons] at hp
      rcases List.mem_cons.mp hp with he | hlater
      · rw [he]
        exact shaped_forValue path taken
      · exact ih _ p hlater

end Values

/-! ### Names

The invariant that carries everything about names: no candidate before the one a name is
bound at could have been taken for it.
-/

/-- Every name is bound at the first of its candidates that no other name has. -/
def Settled (names : Dict String) : Prop :=
  ∀ p name, names.find? p = some name → ∃ m, p = candidate (ofName name) m ∧
    ∀ j < m, ∃ other, names.find? (candidate (ofName name) j) = some other ∧ other ≠ name

theorem settled_empty : Settled ∅ := by
  intro p name h
  cases h

/-- **In a settled table a name has one placeholder.** -/
theorem Settled.injective {names : Dict String} (h : Settled names) {p q name : String}
    (hp : names.find? p = some name) (hq : names.find? q = some name) : p = q := by
  obtain ⟨m, rfl, hbefore⟩ := h p name hp
  obtain ⟨n, rfl, hbefore'⟩ := h q name hq
  rcases Nat.lt_trichotomy m n with hlt | rfl | hgt
  · obtain ⟨other, hother, hne⟩ := hbefore' m hlt
    rw [hp] at hother
    cases hother
    exact absurd rfl hne
  · rfl
  · obtain ⟨other, hother, hne⟩ := hbefore n hgt
    rw [hq] at hother
    cases hother
    exact absurd rfl hne

/-- What the search finds is free, or is what the name has already. -/
theorem find?_forName (name : String) (names : Dict String) :
    names.find? (forName name names) = none ∨ names.find? (forName name names) = some name := by
  obtain ⟨m, hm, hfree, -⟩ := forName_spec name names
  rwa [hm]

/-- Binding what the search finds changes no binding. -/
theorem find?_insert_forName {names : Dict String} {p a : String} (name : String)
    (hp : names.find? p = some a) :
    (names.insert (forName name names) name).find? p = some a := by
  rw [Entries.find?_insert]
  by_cases he : p = forName name names
  · rw [if_pos he]
    rcases find?_forName name names with hnone | hsame
    · rw [← he, hp] at hnone
      cases hnone
    · rw [← he, hp] at hsame
      cases hsame
      rfl
  · rw [if_neg he, hp]

/-- **Binding what the search finds settles the table anew.** -/
theorem Settled.insert_forName {names : Dict String} (h : Settled names) (name : String) :
    Settled (names.insert (forName name names) name) := by
  intro p a hp
  rw [Entries.find?_insert] at hp
  by_cases he : p = forName name names
  · rw [if_pos he] at hp
    cases hp
    obtain ⟨m, hm, -, hbefore⟩ := forName_spec name names
    refine ⟨m, he.trans hm, fun j hj => ?_⟩
    obtain ⟨other, hother, hne⟩ := hbefore j hj
    exact ⟨other, find?_insert_forName name hother, hne⟩
  · rw [if_neg he] at hp
    obtain ⟨m, hm, hbefore⟩ := h p a hp
    refine ⟨m, hm, fun j hj => ?_⟩
    obtain ⟨other, hother, hne⟩ := hbefore j hj
    exact ⟨other, find?_insert_forName name hother, hne⟩

end ItemStore.Placeholder

namespace ItemStore.PathPlaceholders

open Placeholder

/-! ### Paths -/

theorem map_snd_assign (segments : List String) :
    ∀ (names : Dict String), (assign segments names).map (·.2) = segments := by
  induction segments with
  | nil => intro names; rfl
  | cons segment segments ih => intro names; rw [assign, List.map_cons, ih]

theorem shaped_assign (segments : List String) :
    ∀ (names : Dict String), ∀ p ∈ (assign segments names).map (·.1), Shaped '#' p := by
  induction segments with
  | nil => intro names p hp; simp [assign] at hp
  | cons segment segments ih =>
      intro names p hp
      rw [assign, List.map_cons] at hp
      rcases List.mem_cons.mp hp with he | hlater
      · rw [he]
        exact shaped_forName segment names
      · exact ih _ p hlater

/-- The table with the placeholders of a path keeps what was bound. -/
theorem find?_extend_assign (segments : List String) :
    ∀ {names : Dict String} {p a : String}, names.find? p = some a →
      (names.extend (assign segments names)).find? p = some a := by
  induction segments with
  | nil => intro names p a h; exact h
  | cons segment segments ih =>
      intro names p a h
      rw [assign, Entries.extend_cons]
      exact ih (find?_insert_forName segment h)

/-- The table with the placeholders of a path is settled again. -/
theorem settled_extend_assign (segments : List String) :
    ∀ {names : Dict String}, Settled names → Settled (names.extend (assign segments names)) := by
  induction segments with
  | nil => intro names h; exact h
  | cons segment segments ih =>
      intro names h
      rw [assign, Entries.extend_cons]
      exact ih (h.insert_forName segment)

/-- The table with the placeholders of a path gives every segment by its placeholder. -/
theorem find?_of_mem_assign (segments : List String) :
    ∀ {names : Dict String} {p segment : String}, (p, segment) ∈ assign segments names →
      (names.extend (assign segments names)).find? p = some segment := by
  induction segments with
  | nil => intro names p segment h; simp [assign] at h
  | cons first segments ih =>
      intro names p segment h
      rw [assign] at h
      rw [assign, Entries.extend_cons]
      rcases List.mem_cons.mp h with he | hlater
      · cases he
        refine find?_extend_assign segments ?_
        rw [Entries.find?_insert, if_pos rfl]
      · exact ih hlater

/-- Looked up in that table, the placeholders of a path give its segments in order. -/
theorem map_find?_assign (segments : List String) (names : Dict String) :
    ((assign segments names).map (·.1)).map (names.extend (assign segments names)).find? =
      segments.map some := by
  have hsegments := map_snd_assign segments names
  nth_rewrite 3 [← hsegments]
  rw [List.map_map, List.map_map]
  exact List.map_congr_left fun a ha => find?_of_mem_assign _ ha

/-- Two segments with one placeholder are one segment. -/
theorem agree_assign (segments : List String) (names : Dict String) :
    Entries.Agree (assign segments names) := by
  intro p a b ha hb
  have := find?_of_mem_assign segments ha
  rw [find?_of_mem_assign segments hb] at this
  cases this
  rfl

end ItemStore.PathPlaceholders

namespace ItemStore

/-! ### The names along a path -/

/-- The names along a path are what stands between its points. -/
theorem splitPoints_eq_splitOn (cs : List Char) : splitPoints cs = cs.splitOn '.' := by
  induction cs with
  | nil => simp [splitPoints]
  | cons c cs ih =>
      obtain ⟨segment, segments, hsplit⟩ :=
        List.exists_cons_of_ne_nil (List.splitOn_ne_nil '.' cs)
      rw [splitPoints, ih, List.splitOn_cons_eq_if_modifyHead, hsplit]
      by_cases hc : c = '.'
      · rw [if_pos hc, if_pos (by simpa using hc)]
      · rw [if_neg hc, if_neg (by simpa using hc)]
        rfl

/-- A path is its names with points between them. -/
theorem intercalate_pathSegments (path : String) : ".".intercalate (pathSegments path) = path := by
  apply String.toList_injective
  rw [String.toList_intercalate, pathSegments, List.map_map, splitPoints_eq_splitOn]
  have hid : String.toList ∘ String.ofList = id := funext fun _ => String.toList_ofList
  rw [hid, List.map_id]
  exact List.intercalate_splitOn '.'

theorem pathSegments_injective : Function.Injective pathSegments :=
  Function.LeftInverse.injective (g := ".".intercalate) intercalate_pathSegments

theorem pathSegments_ne_nil (path : String) : pathSegments path ≠ [] := by
  rw [pathSegments, splitPoints_eq_splitOn]
  simp [List.splitOn_ne_nil]

/-- A path is given placeholders unless one of its segments has no word character. -/
theorem any_isEmpty_clean_iff {path : String} :
    ((pathSegments path).any fun s => (Text.clean s).isEmpty) = true ↔
      ¬∀ segment ∈ path.toList.splitOn '.', ∃ c ∈ segment, Text.isWord c = true := by
  rw [pathSegments, splitPoints_eq_splitOn, List.any_map, List.any_eq_true]
  push Not
  simp only [Function.comp, Placeholder.isEmpty_clean_iff, String.toList_ofList,
    Bool.not_eq_true]

/-- Names without points are found again in the path they make. -/
theorem pathSegments_intercalate {segments : List String} (hne : segments ≠ [])
    (h : ∀ s ∈ segments, '.' ∉ s.toList) : pathSegments (".".intercalate segments) = segments := by
  have hparts : ∀ cs ∈ segments.map String.toList, '.' ∉ cs := by
    simpa using h
  rw [pathSegments, String.toList_intercalate, splitPoints_eq_splitOn]
  change (List.splitOn '.' (['.'].intercalate _)).map _ = _
  rw [List.splitOn_intercalate '.' hparts (by simpa using hne), List.map_map]
  have hid : String.ofList ∘ String.toList = id := funext fun _ => String.ofList_toList
  rw [hid, List.map_id]

end ItemStore
