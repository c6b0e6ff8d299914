/-
Registering a name that has a placeholder.

The search goes through the candidates of a name and stops at the first that stands for nothing,
so it comes to a binding of the name only across candidates that are all taken.  A table may bind
a name past a gap, or at a text that is none of its candidates; there the search stops at a text
that is free, and registering it gives the name a second placeholder.  `Reached` is what such a
table lacks, and nothing more is needed (`find?_forName_eq_some_iff`).

The search leaves no gap itself.  Once it has found a placeholder for a name, the candidates before
that one stand for other names, no registration takes them back, and the name keeps its placeholder
from there on (`forName_extend_assign`).  So a gap comes with a table that was put together in
another way.
-/
import ItemStore.Proofs.Placeholder

namespace ItemStore.Placeholder

open PathPlaceholders (assign find?_extend_assign)

/-- A table with a name bound at the placeholder that is found for it. -/
def register (names : Dict String) (name : String) : Dict String :=
  names.insert (forName name names) name

/-- The name is bound at one of its candidates, and each candidate before that stands for
something. -/
def Reached (name : String) (names : Dict String) : Prop :=
  ∃ m, names.find? (candidate (ofName name) m) = some name ∧
    ∀ j < m, names.find? (candidate (ofName name) j) ≠ none

variable {names : Dict String} {name p : String}

/-! ### Which binding is found -/

/-- **The search finds a binding of the name exactly if it comes to one.** -/
theorem find?_forName_eq_some_iff :
    names.find? (forName name names) = some name ↔ Reached name names := by
  obtain ⟨n, hn, hfree, hbefore⟩ := forName_spec name names
  rw [hn]
  constructor
  · intro hfound
    refine ⟨n, hfound, fun j hj => ?_⟩
    obtain ⟨other, hother, -⟩ := hbefore j hj
    rw [hother]
    exact Option.some_ne_none other
  · rintro ⟨m, hbound, htaken⟩
    rcases hfree with hnone | hsame
    · -- A candidate that stands for nothing is neither beyond the binding nor before it.
      exfalso
      rcases Nat.lt_trichotomy n m with hlt | rfl | hgt
      · exact htaken n hlt hnone
      · rw [hnone] at hbound
        cases hbound
      · obtain ⟨other, hother, hne⟩ := hbefore m hgt
        rw [hbound] at hother
        exact hne (Option.some.inj hother).symm
    · exact hsame

theorem find?_forName_eq_none_iff :
    names.find? (forName name names) = none ↔ ¬Reached name names := by
  rw [← find?_forName_eq_some_iff]
  rcases find?_forName name names with hnone | hsame
  · simp [hnone]
  · simp [hsame]

/-! ### What registering does -/

theorem find?_register_self (names : Dict String) (name : String) :
    (register names name).find? (forName name names) = some name := by
  rw [register, Entries.find?_insert, if_pos rfl]

/-- Registering changes nothing exactly if a binding of the name is found. -/
theorem register_eq_self_iff : register names name = names ↔ Reached name names := by
  rw [← find?_forName_eq_some_iff]
  constructor
  · intro h
    have hself := find?_register_self names name
    rwa [h] at hself
  · intro h
    refine Entries.ext fun q => ?_
    rw [register, Entries.find?_insert]
    by_cases hq : q = forName name names
    · rw [if_pos hq, hq, h]
    · rw [if_neg hq]

/-- **A name keeps the placeholder that was found for it**, whatever is registered after it. -/
theorem forName_extend_assign (later : List String) :
    forName name ((register names name).extend (assign later (register names name))) =
      forName name names := by
  obtain ⟨m, hm, -, hbefore⟩ := forName_spec name names
  have hself := find?_register_self names name
  rw [hm] at hself ⊢
  refine forName_eq_candidate (Or.inr (find?_extend_assign later hself)) fun j hj => ?_
  obtain ⟨other, hother, hne⟩ := hbefore j hj
  exact ⟨other, find?_extend_assign later (find?_insert_forName name hother), hne⟩

/-- **A bound name keeps its placeholders exactly if the search comes to one of them.**  Where it
does, one of them is found, and registering changes nothing.  Where it does not, a text is found
that stands for nothing, and registering binds the name there and leaves it bound where it was.
Either way the name keeps what was found, through everything that is registered after it. -/
theorem bound_name_kept_iff_reached (bound : names.find? p = some name) :
    (names.find? (forName name names) = some name ↔ Reached name names) ∧
    (register names name = names ↔ Reached name names) ∧
    (¬Reached name names →
      names.find? (forName name names) = none ∧ forName name names ≠ p ∧
        (register names name).find? (forName name names) = some name ∧
        (register names name).find? p = some name) ∧
    ∀ later : List String,
      forName name ((register names name).extend (assign later (register names name))) =
        forName name names := by
  refine ⟨find?_forName_eq_some_iff, register_eq_self_iff, fun hnot => ?_, forName_extend_assign⟩
  have hnone := find?_forName_eq_none_iff.mpr hnot
  refine ⟨hnone, fun he => ?_, find?_register_self names name, find?_insert_forName name bound⟩
  rw [he, bound] at hnone
  cases hnone

/-- A name bound behind two others is reached, and one bound behind a gap is not. -/
theorem bound_name_kept_iff_reached_behind_others :
    let others := Entries.ofList [("#ab", "ab"), ("#ab_2", "a.b"), ("#ab_3", "a-b")]
    let gap := Entries.ofList [("#ab", "ab"), ("#ab_3", "a-b")]
    others.find? "#ab_3" = some "a-b" ∧ register others "a-b" = others ∧
      gap.find? "#ab_3" = some "a-b" ∧ ¬Reached "a-b" gap ∧
      gap.find? (forName "a-b" gap) = none ∧ (register gap "a-b").find? "#ab_3" = some "a-b" := by
  intro others gap
  have hothers : others.find? "#ab_3" = some "a-b" := by decide
  have hgap : gap.find? "#ab_3" = some "a-b" := by decide
  have hfound : others.find? (forName "a-b" others) = some "a-b" := by decide
  have hmissed : gap.find? (forName "a-b" gap) ≠ some "a-b" := by decide
  obtain ⟨hfinds, hsame, -, -⟩ := bound_name_kept_iff_reached hothers
  obtain ⟨hfinds', -, hsecond, -⟩ := bound_name_kept_iff_reached hgap
  have hnot := mt hfinds'.mpr hmissed
  obtain ⟨hnone, -, -, hkept⟩ := hsecond hnot
  exact ⟨hothers, hsame.mpr (hfinds.mp hfound), hgap, hnot, hnone, hkept⟩

/-- A name that is bound at its second candidate alone is given the first beside it. -/
theorem second_placeholder_before_gap :
    let names := Entries.ofList [("#a_2", "a")]
    names.find? "#a_2" = some "a" ∧ forName "a" names = "#a" ∧ names.find? "#a" = none ∧
      (register names "a").toList = [("#a", "a"), ("#a_2", "a")] := by
  decide

end ItemStore.Placeholder
