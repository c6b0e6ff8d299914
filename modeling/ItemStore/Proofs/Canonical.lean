/-
Clauses that were read can be written and read again.

Reading undoes rendering for operands that can stand in any clause (`Clauses.read_statement`),
so what is to be shown is that the reader never finds any others.  A stretch was read from
one cut to the next: no piece of it ends anything, and its parentheses close, or the text
would not have been read (`plain_stretch`).  A cut glues nothing to what follows it, so that
the stretch is as plain in any other place as it is after its own cut; and taking the blanks
off its ends takes off pieces that count for nothing (`plain_trimChars`).
-/
import Mathlib.Data.List.DropRight
import ItemStore.Proofs.Reading

namespace ItemStore

namespace ClauseText

open Text

/-! ### Stretches are plain -/

/-- A stretch begins with what stands at its place. -/
theorem head?_stretch {before after : List Char} :
    ∀ c ∈ (stretch before after).head?, c ∈ after.head? := by
  cases after with
  | nil => exact fun c hc => hc
  | cons d after =>
      intro c hc
      rw [stretch] at hc
      split at hc
      · cases hc
      · exact hc

theorem Piece.of_head? {p rest rest' : List Char} (hp : Piece p rest)
    (hhead : ∀ c ∈ rest'.head?, c ∈ rest.head?) : Piece p rest' := by
  cases hp with
  | mark stop => exact .mark stop rest'
  | word some word stop => exact .word some word fun c hc => stop c (hhead c hc)

/-- **No piece of a stretch ends anything.** -/
theorem plain_stretch (after : List Char) :
    ∀ {depth : Nat} {previous : Option Char} {before : List Char},
      Between depth previous before after → Closes before after →
        Plain depth previous (pieces (stretch before after)) := by
  induction after using piece_induction with
  | nil =>
      intro depth previous before hbetween hcloses
      exact hbetween.depth_eq_zero_iff.mpr (closes_nil.mp hcloses)
  | piece p rest hp ih =>
      intro depth previous before hbetween hcloses
      have hrole := hbetween.role hp
      have hrest := (closes_piece hp hcloses.nested).mp hcloses
      rw [stretch_piece hp]
      generalize cut? before (p ++ rest) = cut? at hrole ⊢
      cases hrole with
      | comma outside => exact outside
      | keyword k outside => exact outside
      | unopened outside => exact absurd rfl (hbetween.opened hp hcloses outside)
      | text continues =>
          have hnext := hbetween.after_text hp continues
          rw [if_neg (by simp), (hp.of_head? head?_stretch).pieces_eq]
          exact ⟨continues, ih hnext hrest⟩

/-- Every stretch of a text whose parentheses close is plain wherever it stands. -/
theorem plain_of_mem_segments (after : List Char) :
    ∀ {depth : Nat} {previous : Option Char} {before : List Char},
      Between depth previous before after → Closes before after →
        ∀ seg ∈ segments before after, Plain 0 none (pieces seg.2) := by
  induction after using piece_induction with
  | nil =>
      intro depth previous before _ _ seg hseg
      cases hseg
  | piece p rest hp ih =>
      intro depth previous before hbetween hcloses
      have hrole := hbetween.role hp
      have hrest := (closes_piece hp hcloses.nested).mp hcloses
      rw [segments_piece hp]
      generalize cut? before (p ++ rest) = cut? at hrole ⊢
      -- After a cut nothing is glued.
      have hcut : ∀ cut : Cut, p = cut.text → depth = 0 →
          ∀ seg ∈ (cut, stretch (before ++ p) rest) :: segments (before ++ p) rest,
            Plain 0 none (pieces seg.2) := by
        intro cut htext outside
        have hnext := hbetween.after_cut hp cut htext
        have hunglued : p.getLast?.any State.glues = false := by
          rw [htext]
          cases cut with
          | comma => rfl
          | keyword k => cases k <;> rfl
        rw [outside] at hnext
        exact List.forall_mem_cons.mpr
          ⟨(plain_stretch rest hnext hrest).of_not_glues hunglued, ih hnext hrest⟩
      cases hrole with
      | comma outside => exact hcut .comma rfl outside
      | keyword k outside => exact hcut (.keyword k) rfl outside
      | unopened outside => exact absurd rfl (hbetween.opened hp hcloses outside)
      | text continues =>
          exact ih (hbetween.after_text hp continues) hrest

/-! ### Trimmed stretches are plain -/

/-- A blank leaves the depth as it is. -/
theorem depthAfter_blank {c : Char} (hc : isBlank c = true) (depth : Nat) :
    depthAfter depth [c] = depth := by
  rw [depthAfter, if_neg, if_neg]
  · rintro ⟨⟩
    exact absurd hc (by decide)
  · rintro ⟨⟩
    exact absurd hc (by decide)

theorem glues_of_blank {c : Char} (hc : isBlank c = true) : State.glues c = false := by
  have hall : (blanks.all fun b => !State.glues b) = true := by decide +kernel
  simpa using List.all_eq_true.mp hall c (List.contains_iff_mem.mp hc)

theorem plain_dropWhile (cs : List Char) :
    Plain 0 none (pieces cs) → Plain 0 none (pieces (cs.dropWhile isBlank)) := by
  induction cs with
  | nil => exact id
  | cons c cs ih =>
      intro h
      by_cases hc : isBlank c = true
      · rw [pieces_cons_of_stop (isWordLike_of_isBlank hc)] at h
        have hrest := h.2
        rw [depthAfter_blank hc] at hrest
        rw [List.dropWhile_cons_of_pos hc]
        exact ih (hrest.of_not_glues (glues_of_blank hc))
      · rwa [List.dropWhile_cons_of_neg hc]

/-- A blank at the end can be left out. -/
theorem Plain.dropLast {c : Char} (hc : isBlank c = true) {ps : List (List Char)} :
    ∀ {depth : Nat} {previous : Option Char}, Plain depth previous (ps ++ [[c]]) →
      Plain depth previous ps := by
  induction ps with
  | nil =>
      intro depth previous h
      have hend : depthAfter depth [c] = 0 := h.2
      rwa [depthAfter_blank hc] at hend
  | cons piece ps ih =>
      intro depth previous h
      exact ⟨h.1, ih h.2⟩

theorem plain_rdropWhile (cs : List Char) :
    Plain 0 none (pieces cs) → Plain 0 none (pieces (cs.rdropWhile isBlank)) := by
  induction cs using List.reverseRecOn with
  | nil => exact id
  | append_singleton cs c ih =>
      intro h
      rw [List.rdropWhile_concat]
      by_cases hc : isBlank c = true
      · rw [if_pos hc]
        have hstop : ∀ d ∈ [c].head?, isWordLike d = false := by
          simpa using isWordLike_of_isBlank hc
        rw [pieces_append hstop] at h
        exact ih (h.dropLast hc)
      · rwa [if_neg hc]

/-- Blanks at the ends count for nothing. -/
theorem plain_trimChars {cs : List Char} (h : Plain 0 none (pieces cs)) :
    Plain 0 none (pieces (trimChars cs)) :=
  plain_rdropWhile _ (plain_dropWhile cs h)

end ClauseText

namespace Clauses

open ClauseText

/-- **What the reader finds are operands.** -/
theorem isOperand_of_read {text : String} {c : Clauses} (hread : read text = .ok c)
    (k : Keyword) : ∀ o ∈ c.operands k, IsOperand o := by
  obtain ⟨hgrammatical, hoperands⟩ := gives_start_iff.mp (read_eq_ok_iff.mp hread)
  intro o ho
  rw [hoperands k, operandsUnder] at ho
  obtain ⟨stretch, hunder, rfl⟩ := List.mem_map.mp ho
  obtain ⟨cut, hmem⟩ := mem_segments_of_mem_under hunder
  have hplain := plain_of_mem_segments _ (Between.start _) hgrammatical.closes _ hmem
  refine ⟨?_, ?_, ?_⟩ <;> rw [String.toList_ofList]
  · exact trimChars_ne_nil_iff.mpr (hgrammatical.filled _ hmem)
  · exact Text.trimChars_trimChars stretch
  · exact plain_trimChars hplain

/-- **Clauses that were read are read again from their canonical text**, and are the same. -/
theorem read_statement_of_read {text : String} {c : Clauses} (hread : read text = .ok c) :
    read c.statement = .ok c :=
  read_statement (isOperand_of_read hread)

theorem read_statement_of_read_merged :
    ∃ c, read "REMOVE #SET,l[0] SET a = f(:a, SET),b = :c REMOVE d" = .ok c ∧
      c.statement = "SET a = f(:a, SET), b = :c REMOVE #SET, l[0], d" ∧
      read c.statement = .ok c := by
  have hread : read "REMOVE #SET,l[0] SET a = f(:a, SET),b = :c REMOVE d" =
      .ok { set := ["a = f(:a, SET)", "b = :c"], remove := ["#SET", "l[0]", "d"] } := by
    decide +kernel
  exact ⟨_, hread, by decide, read_statement_of_read hread⟩

end Clauses

end ItemStore
