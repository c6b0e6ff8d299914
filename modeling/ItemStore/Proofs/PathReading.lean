/-
A path in placeholders can be read back.

A path is written with one placeholder a segment, and each is chosen beside the table and beside
the segments before it.  Two segments may clean to one text, a segment may look like the
candidate of another, and the table may have any of them already.  None of this is looked at
here.  A placeholder is bound to its segment in the table that the path leaves, and binding it
there took nothing from another name (`find?_of_mem_assign`, `find?_extend_assign`).  So it means
one segment within the path, and to the table no other one.

That the text can be cut again is a matter of shape.  A placeholder has no point
(`point_not_mem_of_shaped`), so the points of the text are those put between placeholders, however
the segments were spelled.
-/
import ItemStore.Proofs.Placeholder

namespace ItemStore.PathPlaceholders

open Placeholder

variable {path : String} {names : Dict String} {p : PathPlaceholders}

/-- The path that is read back: the text is cut at its points, and the pieces are looked up among
the names. -/
def path? (p : PathPlaceholders) : Option String :=
  ((pathSegments p.text).mapM fun q => p.names.lookup q).map ".".intercalate

/-- What the placeholders of a path have to be, beside a table. -/
structure StandsFor (names : Dict String) (path : String) (p : PathPlaceholders) : Prop where
  /-- There is one placeholder for each segment, in the order of the path. -/
  segments : p.names.map (·.2) = pathSegments path
  /-- The text is the placeholders with points between them. -/
  text : p.text = ".".intercalate (p.names.map (·.1))
  /-- A placeholder stands for one segment. -/
  agree : ∀ q segment other, (q, segment) ∈ p.names → (q, other) ∈ p.names → segment = other
  /-- A placeholder of the table stands for what it stands for there. -/
  kept : ∀ q segment bound, (q, segment) ∈ p.names → names.find? q = some bound → segment = bound
  /-- The text and the names give the path. -/
  readable : p.path? = some path

/-! ### When a path is given placeholders -/

/-- A path is given those that `assign` chooses, if every segment has a word character. -/
theorem ofPath_eq_ok_iff : ofPath path names = .ok p ↔
    (∀ segment ∈ path.toList.splitOn '.', ∃ c ∈ segment, Text.isWord c = true) ∧
      p = { text := ".".intercalate ((assign (pathSegments path) names).map (·.1))
            names := assign (pathSegments path) names } := by
  unfold ofPath
  dsimp only
  by_cases hwordless : ((pathSegments path).any fun s => (Text.clean s).isEmpty) = true
  · have hnot := any_isEmpty_clean_iff.mp hwordless
    rw [if_pos hwordless]
    exact ⟨nofun, fun h => absurd h.1 hnot⟩
  · have hwords := not_not.mp (mt any_isEmpty_clean_iff.mpr hwordless)
    rw [if_neg hwordless, Except.ok.injEq]
    exact ⟨fun h => ⟨hwords, h.symm⟩, fun h => h.2.symm⟩

/-! ### What they stand for -/

/-- What a placeholder is bound to in the table is the segment it was chosen for. -/
theorem eq_of_mem_assign {segments : List String} {q segment bound : String}
    (hmem : (q, segment) ∈ assign segments names) (hbound : names.find? q = some bound) :
    segment = bound := by
  have hafter := find?_of_mem_assign segments hmem
  rw [find?_extend_assign segments hbound] at hafter
  cases hafter
  rfl

/-- The text of a path is cut into its placeholders. -/
theorem pathSegments_text (segments : List String) (names : Dict String) (hne : segments ≠ []) :
    pathSegments (".".intercalate ((assign segments names).map (·.1))) =
      (assign segments names).map (·.1) := by
  have hsome : (assign segments names).map (·.1) ≠ [] := by
    intro hnil
    have hsegments := map_snd_assign segments names
    rw [List.map_eq_nil_iff.mp hnil] at hsegments
    exact hne hsegments.symm
  exact pathSegments_intercalate hsome fun q hq =>
    point_not_mem_of_shaped (shaped_assign segments names q hq)

theorem standsFor_of_ofPath (h : ofPath path names = .ok p) : p.StandsFor names path := by
  obtain ⟨-, rfl⟩ := ofPath_eq_ok_iff.mp h
  have hagree := agree_assign (pathSegments path) names
  refine {
    segments := map_snd_assign _ _
    text := rfl
    agree := hagree
    kept := fun q segment bound => eq_of_mem_assign
    readable := ?_ }
  show ((pathSegments (".".intercalate ((assign (pathSegments path) names).map (·.1)))).mapM
    fun q => (assign (pathSegments path) names).lookup q).map ".".intercalate = some path
  rw [pathSegments_text _ _ (pathSegments_ne_nil path), hagree.mapM_lookup, map_snd_assign,
    Option.map_some, intercalate_pathSegments]

/-- **The placeholders of a path are consistent, and the path can be read back from them.**  A path
is given placeholders if each of its segments has a word character, and only then.  They are one a
segment, in order; one placeholder does not stand for two segments, nor for another one than in the
table; and the text, cut at its points and looked up, is the path again. -/
theorem ofPath_reversible (path : String) (names : Dict String) :
    ((∃ p, ofPath path names = .ok p) ↔
      ∀ segment ∈ path.toList.splitOn '.', ∃ c ∈ segment, Text.isWord c = true) ∧
    ∀ p, ofPath path names = .ok p → p.StandsFor names path := by
  constructor
  · constructor
    · rintro ⟨p, h⟩
      exact (ofPath_eq_ok_iff.mp h).1
    · intro hwords
      exact ⟨_, ofPath_eq_ok_iff.mpr ⟨hwords, rfl⟩⟩
  · exact fun p => standsFor_of_ofPath

/-- Three segments of which two clean to one text and the third looks like a candidate of theirs,
beside a table that has that text taken. -/
theorem ofPath_reversible_lookalikes :
    let names := Entries.ofList [("#a", "x"), ("#a_2", "a-")]
    ∃ p, ofPath "a-.a.a_2" names = .ok p ∧ p.text = "#a_2.#a_3.#a_2_2" ∧
      p.StandsFor names "a-.a.a_2" := by
  intro names
  have htext : (ofPath "a-.a.a_2" names).map (·.text) = .ok "#a_2.#a_3.#a_2_2" := by decide
  cases hp : ofPath "a-.a.a_2" names with
  | error e =>
      rw [hp] at htext
      cases htext
  | ok p =>
      rw [hp] at htext
      exact ⟨p, rfl, Except.ok.inj htext, (ofPath_reversible "a-.a.a_2" names).2 p hp⟩

end ItemStore.PathPlaceholders
