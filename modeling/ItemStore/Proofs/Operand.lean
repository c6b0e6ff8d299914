/-
What can be written into a clause is read out of it.

Whoever renders clauses of their own has to know which texts may stand as operands, and can
know it from the text alone: there is something in it and no blank at either end, its
parentheses close, and no cut is in it (`Standalone`).  A text without a cut is one stretch
from its first character to its last, and stretches are plain (`plain_stretch`); so each such
text is an operand wherever it stands, and rendered clauses are read back as what they were:
every keyword has the operands given under it, clause after clause.
-/
import Mathlib.Data.List.Infix
import ItemStore.Proofs.Canonical

namespace ItemStore

namespace ClauseText

open Text

/-- A text that can stand as an operand in any clause. -/
structure Standalone (text : String) : Prop where
  filled : HasText text.toList
  first : ∀ c ∈ text.toList.head?, isBlank c = false
  last : ∀ c ∈ text.toList.getLast?, isBlank c = false
  closes : Closes [] text.toList
  /-- No comma and no keyword outside parentheses, but for keywords that are glued. -/
  uncut : ∀ part rest, part ++ rest = text.toList → cut? part rest = none

/-! ### Deciding it -/

theorem segments_eq_nil_iff {cs : List Char} :
    segments [] cs = [] ↔ ∀ part rest, part ++ rest = cs → cut? part rest = none := by
  constructor
  · intro hnil part rest happend
    cases hcut : cut? part rest with
    | none => rfl
    | some cut =>
        obtain ⟨text, hmem⟩ := (mem_segments_iff cut cs []).mpr ⟨part, rest, happend, hcut⟩
        rw [hnil] at hmem
        cases hmem
  · intro huncut
    refine List.eq_nil_iff_forall_not_mem.mpr fun seg hmem => ?_
    obtain ⟨part, rest, happend, hcut⟩ := (mem_segments_iff seg.1 cs []).mp ⟨seg.2, hmem⟩
    rw [List.nil_append, huncut part rest happend] at hcut
    cases hcut

theorem closes_nil_iff {cs : List Char} :
    Closes [] cs ↔ (∀ part ∈ cs.inits, 0 ≤ nesting part) ∧ nesting cs = 0 := by
  constructor
  · intro h
    exact ⟨fun part hpart => h.never part ((List.mem_inits part cs).mp hpart), h.last⟩
  · rintro ⟨hnever, hlast⟩
    exact ⟨fun part hpart => hnever part ((List.mem_inits part cs).mpr hpart), hlast⟩

instance (cs : List Char) : Decidable (HasText cs) :=
  decidable_of_iff ((cs.any fun c => !isBlank c) = true) (by simp [HasText])

instance (cs : List Char) : Decidable (Closes [] cs) :=
  decidable_of_iff _ closes_nil_iff.symm

theorem all_not_isBlank_iff {c? : Option Char} :
    (c?.all fun c => !isBlank c) = true ↔ ∀ c ∈ c?, isBlank c = false := by
  cases c? <;> simp

instance (text : String) : Decidable (Standalone text) :=
  decidable_of_iff
    (HasText text.toList ∧ (text.toList.head?.all fun c => !isBlank c) = true ∧
      (text.toList.getLast?.all fun c => !isBlank c) = true ∧ Closes [] text.toList ∧
      segments [] text.toList = [])
    ⟨fun ⟨filled, first, last, closes, uncut⟩ =>
      ⟨filled, all_not_isBlank_iff.mp first, all_not_isBlank_iff.mp last, closes,
        segments_eq_nil_iff.mp uncut⟩,
    fun ⟨filled, first, last, closes, uncut⟩ =>
      ⟨filled, all_not_isBlank_iff.mpr first, all_not_isBlank_iff.mpr last, closes,
        segments_eq_nil_iff.mpr uncut⟩⟩

/-! ### Such texts are operands -/

/-- Where no cut is ahead, the stretch goes to the end. -/
theorem stretch_eq_self (after : List Char) :
    ∀ before, (∀ part rest, part ++ rest = after → cut? (before ++ part) rest = none) →
      stretch before after = after := by
  induction after with
  | nil => intro before _; rfl
  | cons c after ih =>
      intro before huncut
      have hfirst : cut? before (c :: after) = none := by
        simpa using huncut [] (c :: after) rfl
      have hrest := ih (before ++ [c]) fun part rest happend => by
        rw [List.append_assoc]
        exact huncut (c :: part) rest (by rw [List.cons_append, happend])
      rw [stretch, hfirst, if_neg (by simp), hrest]

/-- **A text that stands by itself is an operand wherever it stands.** -/
theorem Standalone.isOperand {text : String} (h : Standalone text) : IsOperand text := by
  have hplain := plain_stretch text.toList (Between.start _) h.closes
  rw [stretch_eq_self text.toList [] h.uncut] at hplain
  refine ⟨?_, trimChars_eq_self h.first h.last, hplain⟩
  obtain ⟨c, hc, -⟩ := h.filled
  exact List.ne_nil_of_mem hc

end ClauseText

namespace Clauses

open ClauseText

/-- Clauses put together one after another: each keyword has the operands of its clauses. -/
theorem operands_foldl_pushAll (k : Keyword) (clauses : List (Keyword × List String)) :
    ∀ c : Clauses, (clauses.foldl (fun c p => c.pushAll p.1 p.2) c).operands k =
      c.operands k ++ (clauses.filter fun p => p.1 = k).flatMap (·.2) := by
  induction clauses with
  | nil => intro c; simp
  | cons p clauses ih =>
      intro c
      rw [List.foldl_cons, ih, operands_pushAll, List.append_assoc]
      by_cases hk : p.1 = k
      · simp [hk]
      · simp [hk, Ne.symm hk]

/-- **Reading undoes rendering**, in whatever order the clauses come, whether keywords are
repeated or have no operands, for all operands that stand by themselves. -/
theorem read_render_standalone {clauses : List (Keyword × List String)}
    (h : ∀ p ∈ clauses, ∀ o ∈ p.2, Standalone o) :
    ∃ c, read (render clauses) = .ok c ∧
      ∀ k, c.operands k = (clauses.filter fun p => p.1 = k).flatMap (·.2) := by
  refine ⟨_, read_render fun p hp o ho => (h p hp o ho).isOperand, fun k => ?_⟩
  rw [operands_foldl_pushAll, operands_empty, List.nil_append]

/-- Keywords repeated, without operands, inside parentheses and glued. -/
theorem read_render_standalone_repeated :
    let clauses : List (Keyword × List String) := [
      (.remove, ["#SET", "a.DELETE[0]"]), (.add, []),
      (.set, ["a = f(:a, (SET, REMOVE), ADD)", "SETTINGS = :SET"]), (.remove, ["ÀSET"]),
      (.delete, []), (.set, ["b = -:ADD"])]
    (∀ p ∈ clauses, ∀ o ∈ p.2, Standalone o) ∧
    render clauses = "REMOVE #SET, a.DELETE[0] SET a = f(:a, (SET, REMOVE), ADD), " ++
      "SETTINGS = :SET REMOVE ÀSET SET b = -:ADD" ∧
    ∃ c, read (render clauses) = .ok c ∧
      ∀ k, c.operands k = (clauses.filter fun p => p.1 = k).flatMap (·.2) := by
  intro clauses
  have hall : ∀ p ∈ clauses, ∀ o ∈ p.2, Standalone o := by decide +kernel
  exact ⟨hall, by decide, read_render_standalone hall⟩

end Clauses

end ItemStore
