/-
What trimming leaves.

Trimming takes blanks off both ends and nothing else.  So a blank more at an end makes no
difference, what begins and ends with something is left as it is (`trimChars_eq_self`), and
trimming a second time finds nothing to take off.
-/
import Mathlib.Data.List.DropRight
import ItemStore.Text.Blank

namespace ItemStore.Text

theorem trimChars_cons_blank {c : Char} (hc : isBlank c = true) (cs : List Char) :
    trimChars (c :: cs) = trimChars cs := by
  rw [trimChars, List.dropWhile_cons_of_pos hc, trimChars]

theorem trimChars_append_blank {c : Char} (hc : isBlank c = true) (cs : List Char) :
    trimChars (cs ++ [c]) = trimChars cs := by
  rw [trimChars, trimChars, List.dropWhile_append]
  by_cases hall : (cs.dropWhile isBlank).isEmpty = true
  · rw [if_pos hall, List.isEmpty_iff.mp hall, List.dropWhile_cons_of_pos hc]
    rfl
  · rw [if_neg hall, List.reverse_append, List.reverse_singleton, List.singleton_append,
      List.dropWhile_cons_of_pos hc]

/-- Characters that begin and end with something are trimmed already. -/
theorem trimChars_eq_self {cs : List Char} (hfirst : ∀ c ∈ cs.head?, isBlank c = false)
    (hlast : ∀ c ∈ cs.getLast?, isBlank c = false) : trimChars cs = cs := by
  have hdrop : ∀ {ds : List Char}, (∀ c ∈ ds.head?, isBlank c = false) →
      ds.dropWhile isBlank = ds := by
    intro ds h
    cases ds with
    | nil => rfl
    | cons d ds => rw [List.dropWhile_cons_of_neg (by simp [h d rfl])]
  rw [trimChars, hdrop hfirst, hdrop (by rwa [List.head?_reverse]), List.reverse_reverse]

theorem trimChars_eq_rdropWhile (cs : List Char) :
    trimChars cs = (cs.dropWhile isBlank).rdropWhile isBlank := rfl

/-- Blanks are dropped up to the first character that is none. -/
theorem dropWhile_blanks_append {cs : List Char} (some : cs ≠ [])
    (hcs : ∀ c ∈ cs, isBlank c = false) (lead rest : List Char) :
    (lead ++ (cs ++ rest)).dropWhile isBlank = lead.dropWhile isBlank ++ (cs ++ rest) := by
  obtain ⟨c, cs, rfl⟩ := List.exists_cons_of_ne_nil some
  have hc : ¬isBlank c = true := by simp [hcs c (by simp)]
  rw [List.dropWhile_append, List.cons_append, List.dropWhile_cons_of_neg hc]
  split
  · rename_i hempty
    rw [List.isEmpty_iff.mp hempty, List.nil_append]
  · rfl

/-- Characters that are no blanks are left, and all around them but the blanks at the ends. -/
theorem trimChars_around {cs : List Char} (some : cs ≠ []) (hcs : ∀ c ∈ cs, isBlank c = false)
    (lead tail : List Char) :
    trimChars (lead ++ cs ++ tail) =
      lead.dropWhile isBlank ++ cs ++ tail.rdropWhile isBlank := by
  rw [trimChars, List.append_assoc, dropWhile_blanks_append some hcs, ← List.append_assoc,
    List.reverse_append, List.reverse_append,
    dropWhile_blanks_append (by simpa using some) (by simpa using hcs)]
  simp [List.rdropWhile]

theorem head?_trimChars {cs : List Char} : ∀ c ∈ (trimChars cs).head?, isBlank c = false := by
  intro c hc
  obtain ⟨rest, hrest⟩ := List.rdropWhile_prefix isBlank (cs.dropWhile isBlank)
  have hfirst := List.head?_dropWhile_not isBlank cs
  rw [← hrest, ← trimChars_eq_rdropWhile, List.head?_append, hc, Option.some_or] at hfirst
  exact hfirst

theorem getLast?_trimChars {cs : List Char} :
    ∀ c ∈ (trimChars cs).getLast?, isBlank c = false := by
  intro c hc
  have hlast := List.head?_dropWhile_not isBlank (cs.dropWhile isBlank).reverse
  rw [trimChars, List.getLast?_reverse] at hc
  rwa [hc] at hlast

/-- Nothing is left to be trimmed. -/
theorem trimChars_trimChars (cs : List Char) : trimChars (trimChars cs) = trimChars cs :=
  trimChars_eq_self head?_trimChars getLast?_trimChars

@[simp] theorem toList_trim (s : String) : (trim s).toList = trimChars s.toList :=
  String.toList_ofList

end ItemStore.Text
