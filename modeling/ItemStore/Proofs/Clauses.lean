/-
Rendered clauses are read back.

Between two operands only two things matter of a reader's state: the action it is at, and
the clauses it would give if the text were over (`Stands`).  After a keyword or a comma it
is at an action with nothing of the next operand read (`Begins`).  An operand leads from
the second to the first, a keyword or a comma back; by induction over the operands and then
over the clauses, reading goes through a whole rendered text and gives every action the
operands that were rendered under it, in order (`read_render`).
-/
import ItemStore.Proofs.ClauseText

namespace ItemStore

namespace Clauses

/-- Puts operands after those the action has. -/
def pushAll (c : Clauses) (k : Keyword) (operands : List String) : Clauses :=
  operands.foldl (fun c operand => c.push k operand) c

@[simp] theorem pushAll_nil (c : Clauses) (k : Keyword) : c.pushAll k [] = c := rfl

@[simp] theorem pushAll_cons (c : Clauses) (k : Keyword) (o : String) (os : List String) :
    c.pushAll k (o :: os) = (c.push k o).pushAll k os := rfl

theorem operands_pushAll (k k' : Keyword) (os : List String) :
    ∀ c : Clauses, (c.pushAll k os).operands k' = c.operands k' ++ if k' = k then os else [] := by
  induction os with
  | nil => intro c; simp
  | cons o os ih =>
      intro c
      rw [pushAll_cons, ih, operands_push]
      by_cases hk : k' = k
      · simp [hk]
      · simp [hk]

@[simp] theorem operands_empty (k : Keyword) : (∅ : Clauses).operands k = [] := by
  cases k <;> rfl

theorem ext_operands {c c' : Clauses} (h : ∀ k, c.operands k = c'.operands k) : c = c' := by
  have hset := h .set
  have hadd := h .add
  have hremove := h .remove
  have hdelete := h .delete
  cases c
  cases c'
  simp_all [operands]

/-- The text of one clause. -/
def clauseText (c : Keyword × List String) : String :=
  c.1.text ++ " " ++ ", ".intercalate c.2

theorem render_eq (clauses : List (Keyword × List String)) :
    render clauses = " ".intercalate ((clauses.filter fun c => !c.2.isEmpty).map clauseText) := rfl

end Clauses

namespace ClauseText

open Text

namespace State

/-! ### Reading part of a text -/

/-- Reads characters from a state on. -/
def run (s : State) (cs : List Char) : Except Error State :=
  (pieces cs).foldlM step s

theorem run_append {s s' : State} {cs ds : List Char} (h : s.run cs = .ok s')
    (hstop : ∀ d ∈ ds.head?, isWordLike d = false) : s.run (cs ++ ds) = s'.run ds := by
  rw [run, pieces_append hstop, List.foldlM_append, ← run, h]
  rfl

theorem run_cons {s s' : State} {c : Char} (h : s.step [c] = .ok s')
    (hc : isWordLike c = false) (cs : List Char) : s.run (c :: cs) = s'.run cs := by
  rw [run, pieces_cons_of_stop hc, List.foldlM_cons, h]
  rfl

theorem run_keyword {s s' : State} {k : Keyword} (h : s.step k.text.toList = .ok s') :
    s.run k.text.toList = .ok s' := by
  have hpieces : pieces k.text.toList = [k.text.toList] := by
    cases k <;> rfl
  rw [run, hpieces, List.foldlM_cons, h]
  rfl

/-- Plain pieces are put to the current operand one after another. -/
theorem foldlM_plain {ps : List (List Char)} :
    ∀ {s : State} {k : Keyword} {operand : List Char}, s.current = some (k, operand) →
      Plain s.depth s.previous ps → ∃ s', ps.foldlM step s = .ok s' ∧ s'.depth = 0 ∧
        s'.current = some (k, operand ++ ps.flatten) ∧ s'.clauses = s.clauses := by
  induction ps with
  | nil =>
      intro s k operand hcurrent hplain
      exact ⟨s, rfl, hplain, by rw [hcurrent, List.flatten_nil, List.append_nil], rfl⟩
  | cons piece ps ih =>
      intro s k operand hcurrent hplain
      obtain ⟨s', hrun, hdepth, hcurrent', hclauses⟩ := ih
        (s := { s with
          current := some (k, operand ++ piece)
          depth := depthAfter s.depth piece
          position := s.position + piece.length
          previous := piece.getLast? }) rfl hplain.2
      refine ⟨s', ?_, hdepth, ?_, hclauses⟩
      · rw [List.foldlM_cons, step_of_continues hcurrent hplain.1]
        exact hrun
      · rw [hcurrent', List.flatten_cons, List.append_assoc]

/-! ### Between operands -/

/-- The reader is at an action, or at none yet, and if the text were over it would have
read these clauses. -/
inductive Stands (s : State) : Option Keyword → Clauses → Prop
  | nothing (depth : s.depth = 0) (current : s.current = none) : Stands s none s.clauses
  | operand {k : Keyword} {operand : List Char} (depth : s.depth = 0)
      (current : s.current = some (k, operand)) (something : trimChars operand ≠ []) :
      Stands s (some k) (s.clauses.push k (.ofList (trimChars operand)))

/-- The reader is at an action, these clauses are complete, and nothing of the next operand
has been read. -/
structure Begins (s : State) (k : Keyword) (c : Clauses) : Prop where
  depth : s.depth = 0
  current : s.current = some (k, [])
  clauses : s.clauses = c

theorem finishOperand_of_current {s : State} {k : Keyword} {operand : List Char}
    (hcurrent : s.current = some (k, operand)) (hsome : trimChars operand ≠ []) :
    s.finishOperand = .ok { s with
      current := some (k, [])
      clauses := s.clauses.push k (.ofList (trimChars operand)) } := by
  rw [finishOperand, hcurrent]
  simp [hsome]

section Stands

variable {s : State} {at? : Option Keyword} {c : Clauses}

theorem Stands.depth_eq (h : s.Stands at? c) : s.depth = 0 := by
  cases h with
  | nothing depth => exact depth
  | operand depth => exact depth

theorem Stands.finishClause (h : s.Stands at? c) :
    ∃ s', s.finishClause = .ok s' ∧ s'.depth = 0 ∧ s'.clauses = c := by
  cases h with
  | nothing depth current =>
      refine ⟨s, ?_, depth, rfl⟩
      rw [State.finishClause, current]
      rfl
  | operand depth current something =>
      rw [State.finishClause, current, finishOperand_of_current current something]
      exact ⟨_, rfl, depth, rfl⟩

/-- If the text is over, the clauses are those read. -/
theorem Stands.finish (h : s.Stands at? c) : s.finish = .ok c := by
  obtain ⟨s', hfinish, -, hclauses⟩ := h.finishClause
  rw [State.finish, h.depth_eq, hfinish, ← hclauses]
  rfl

/-- A blank changes nothing, and glues nothing. -/
theorem Stands.blank (h : s.Stands at? c) :
    ∃ s', s.step [' '] = .ok s' ∧ s'.Stands at? c ∧ s'.previous = some ' ' := by
  have hcontinues : Continues s.depth s.previous [' '] :=
    continues_singleton (by decide) (by decide)
  cases h with
  | nothing depth current =>
      refine ⟨{ s with position := s.position + 1, previous := some ' ' }, ?_,
        Stands.nothing (s := { s with position := s.position + 1, previous := some ' ' })
          depth current, rfl⟩
      rw [step_text hcontinues, take_of_blanks current (by rfl)]
      rfl
  | @operand k operand depth current something =>
      have htrim : trimChars (operand ++ [' ']) = trimChars operand :=
        trimChars_append_blank (by rfl) operand
      refine ⟨_, step_of_continues current hcontinues, ?_, rfl⟩
      rw [← htrim] at something ⊢
      exact .operand (by rw [depth]; rfl) rfl something

/-- A keyword begins a clause. -/
theorem Stands.keyword (h : s.Stands at? c) (hprevious : s.previous.any glues = false)
    (k : Keyword) : ∃ s', s.step k.text.toList = .ok s' ∧ s'.Begins k c := by
  obtain ⟨s', hfinish, hdepth, hclauses⟩ := h.finishClause
  rw [step_keyword k h.depth_eq hprevious, hfinish]
  exact ⟨_, rfl, hdepth, rfl, hclauses⟩

/-- A comma begins an operand. -/
theorem Stands.comma {k : Keyword} (h : s.Stands (some k) c) :
    ∃ s', s.step [','] = .ok s' ∧ s'.Begins k c := by
  cases h with
  | operand depth current something =>
      rw [step_comma depth, finishOperand_of_current current something]
      exact ⟨_, rfl, depth, rfl, rfl⟩

end Stands

/-! ### Operands and clauses -/

/-- **An operand is read as it is.** -/
theorem Begins.operand {s : State} {k : Keyword} {c : Clauses} (h : s.Begins k c) {o : String}
    (ho : IsOperand o) :
    ∃ s', s.run (' ' :: o.toList) = .ok s' ∧ s'.Stands (some k) (c.push k o) := by
  have hcontinues : Continues s.depth s.previous [' '] :=
    continues_singleton (by decide) (by decide)
  have hblank := step_of_continues h.current hcontinues
  have hplain : Plain (depthAfter s.depth [' ']) (some ' ') (pieces o.toList) := by
    rw [h.depth]
    exact ho.plain.of_not_glues rfl
  obtain ⟨s', hrun, hdepth, hcurrent, hclauses⟩ := foldlM_plain
    (s := { s with
      current := some (k, [' '])
      depth := depthAfter s.depth [' ']
      position := s.position + 1
      previous := some ' ' }) rfl hplain
  have htrim : trimChars ([' '] ++ (pieces o.toList).flatten) = o.toList := by
    rw [flatten_pieces, List.singleton_append, trimChars_cons_blank (by rfl), ho.trimmed]
  refine ⟨s', (run_cons hblank (by rfl) _).trans hrun, ?_⟩
  have hstands := Stands.operand hdepth hcurrent (by rw [htrim]; exact ho.nonempty)
  rwa [htrim, String.ofList_toList, hclauses, h.clauses] at hstands

/-- **Operands are read one after another.** -/
theorem Begins.operands (os : List String) :
    ∀ {s : State} {k : Keyword} {c : Clauses} {o : String}, s.Begins k c →
      (∀ p ∈ o :: os, IsOperand p) →
      ∃ s', s.run (' ' :: (", ".intercalate (o :: os)).toList) = .ok s' ∧
        s'.Stands (some k) (c.pushAll k (o :: os)) := by
  induction os with
  | nil =>
      intro s k c o h ho
      simpa using h.operand (ho o (by simp))
  | cons p os ih =>
      intro s k c o h ho
      obtain ⟨s₁, hfirst, hstands⟩ := h.operand (ho o (by simp))
      obtain ⟨s₂, hcomma, hbegins⟩ := hstands.comma
      obtain ⟨s', hrest, hstands'⟩ := ih hbegins fun q hq => ho q (List.mem_cons_of_mem _ hq)
      refine ⟨s', ?_, hstands'⟩
      have htext : (", ".intercalate (o :: p :: os)).toList =
          o.toList ++ ',' :: ' ' :: (", ".intercalate (p :: os)).toList := by
        rw [String.toList_intercalate, String.toList_intercalate, List.map_cons, List.map_cons,
          List.intercalate_cons_cons, List.append_assoc]
        rfl
      -- The comma is a piece of its own, so that the operand before it is read apart from it.
      rw [htext, ← List.cons_append, run_append hfirst (by simp; rfl), run_cons hcomma (by rfl)]
      exact hrest

/-- A clause is read with all its operands. -/
theorem Stands.clause {s : State} {at? : Option Keyword} {c : Clauses} (h : s.Stands at? c)
    (hprevious : s.previous.any glues = false) {k : Keyword} {os : List String} (hne : os ≠ [])
    (hos : ∀ o ∈ os, IsOperand o) :
    ∃ s', s.run (Clauses.clauseText (k, os)).toList = .ok s' ∧
      s'.Stands (some k) (c.pushAll k os) := by
  obtain ⟨o, os, rfl⟩ := List.exists_cons_of_ne_nil hne
  obtain ⟨s₁, hkeyword, hbegins⟩ := h.keyword hprevious k
  obtain ⟨s', hoperands, hstands⟩ := hbegins.operands os hos
  refine ⟨s', ?_, hstands⟩
  rw [Clauses.clauseText, String.toList_append, String.toList_append, List.append_assoc]
  exact (run_append (run_keyword hkeyword) (by simp; rfl)).trans hoperands

/-- **Clauses are read one after another.** -/
theorem Stands.clauses (clauses : List (Keyword × List String)) :
    ∀ {s : State} {at? : Option Keyword} {c : Clauses}, s.Stands at? c →
      s.previous.any glues = false →
      (∀ p ∈ clauses, p.2 ≠ [] ∧ ∀ o ∈ p.2, IsOperand o) →
      ∃ s' at?', s.run (" ".intercalate (clauses.map Clauses.clauseText)).toList = .ok s' ∧
        s'.Stands at?' (clauses.foldl (fun c p => c.pushAll p.1 p.2) c) := by
  induction clauses with
  | nil =>
      intro s at? c h _ _
      exact ⟨s, at?, rfl, h⟩
  | cons p clauses ih =>
      intro s at? c h hprevious hall
      obtain ⟨s₁, hclause, hstands⟩ := h.clause hprevious (k := p.1) (hall p (by simp)).1
        (hall p (by simp)).2
      cases clauses with
      | nil => exact ⟨s₁, some p.1, by simpa using hclause, hstands⟩
      | cons q clauses =>
          obtain ⟨s₂, hblank, hstands', hprevious'⟩ := hstands.blank
          obtain ⟨s', at?', hrest, hend⟩ := ih hstands' (by rw [hprevious']; rfl)
            fun r hr => hall r (List.mem_cons_of_mem _ hr)
          refine ⟨s', at?', ?_, hend⟩
          rw [List.map_cons] at hrest
          rw [List.map_cons, List.map_cons, String.toList_intercalate, List.map_cons,
            List.map_cons, List.intercalate_cons_cons, List.append_assoc, ← List.map_cons,
            ← String.toList_intercalate, run_append hclause (by simp; rfl)]
          exact (run_cons hblank (by rfl) _).trans hrest

end State

end ClauseText

namespace Clauses

open ClauseText

theorem foldl_pushAll_filter (clauses : List (Keyword × List String)) :
    ∀ c : Clauses, (clauses.filter fun p => !p.2.isEmpty).foldl (fun c p => c.pushAll p.1 p.2) c =
      clauses.foldl (fun c p => c.pushAll p.1 p.2) c := by
  induction clauses with
  | nil => intro c; rfl
  | cons p clauses ih =>
      intro c
      obtain ⟨k, os⟩ := p
      cases os with
      | nil => exact ih c
      | cons o os => exact ih (c.pushAll k (o :: os))

/-- **Reading undoes rendering**: every action has the operands rendered under it, in order. -/
theorem read_render {clauses : List (Keyword × List String)}
    (h : ∀ p ∈ clauses, ∀ o ∈ p.2, IsOperand o) :
    read (render clauses) = .ok (clauses.foldl (fun c p => c.pushAll p.1 p.2) ∅) := by
  have hstart : State.Stands {} none ∅ := .nothing rfl rfl
  obtain ⟨s', at?, hrun, hstands⟩ := hstart.clauses (clauses.filter fun p => !p.2.isEmpty) rfl
    (by
      intro p hp
      obtain ⟨hmem, hne⟩ := List.mem_filter.mp hp
      exact ⟨by simpa using hne, h p hmem⟩)
  rw [foldl_pushAll_filter] at hstands
  rw [read, render_eq, ← State.run, hrun]
  exact hstands.finish

/-- The text of clauses is read as those clauses. -/
theorem read_statement {c : Clauses} (h : ∀ k, ∀ o ∈ c.operands k, IsOperand o) :
    read c.statement = .ok c := by
  rw [statement, read_render]
  · congr 1
    refine ext_operands fun k => ?_
    cases k <;> simp [Keyword.all, operands_pushAll]
  · intro p hp
    obtain ⟨k, -, rfl⟩ := List.mem_map.mp hp
    exact h k

end Clauses

end ItemStore
