/-
The reader of update expressions, piece by piece.

A text whose parts meet at characters that are no word characters has the pieces of its
parts (`pieces_append`).  What is left to say is what a piece does, and there are three
answers.  A keyword completes the operand before it and begins a clause; a comma completes
an operand and begins the next; and a piece that `Continues` is put to the current operand
and does nothing else.

Pieces that continue from first to last and close the parentheses they open are `Plain`,
and a text of them, trimmed and not empty, `IsOperand`: it can stand in any clause and is
read there as it is.
-/
import ItemStore.Expression.ClauseText
import ItemStore.Text.Word
import ItemStore.Proofs.Except
import ItemStore.Proofs.Trim

namespace ItemStore.Text

/-! ### Characters of words -/

/-- A blank is no character of a word. -/
theorem isWordLike_of_isBlank {c : Char} (h : isBlank c = true) : isWordLike c = false := by
  have hall : (blanks.all fun b => !isWordLike b) = true := by decide +kernel
  simpa using List.all_eq_true.mp hall c (List.contains_iff_mem.mp h)

/-- What can stand in a placeholder can stand in a word. -/
theorem isWordLike_of_isWord {c : Char} (h : isWord c = true) : isWordLike c = true := by
  simp only [isWord, Bool.or_eq_true] at h
  simp only [isWordLike, isAlphanumeric, Bool.or_eq_true]
  rcases h with halnum | hunderscore
  · exact Or.inl (Or.inl halnum)
  · exact Or.inr hunderscore

end ItemStore.Text

namespace ItemStore.ClauseText

open Text

/-! ### Pieces -/

theorem flatten_pieces (cs : List Char) : (pieces cs).flatten = cs := by
  induction cs with
  | nil => rfl
  | cons c cs ih =>
      rw [pieces]
      split
      · rename_i d ds rest heq
        rw [heq, List.flatten_cons] at ih
        split
        · rw [List.flatten_cons, ← ih]
          rfl
        · rw [List.flatten_cons, List.flatten_cons, ih]
          rfl
      · rw [List.flatten_cons, ih]
        rfl

/-- The first piece begins with the first character. -/
theorem pieces_cons (c : Char) (cs : List Char) :
    ∃ word rest, pieces (c :: cs) = (c :: word) :: rest := by
  rw [pieces]
  split
  · split
    · exact ⟨_, _, rfl⟩
    · exact ⟨_, _, rfl⟩
  · exact ⟨_, _, rfl⟩

/-- A character that is no word character is a piece of its own. -/
theorem pieces_cons_of_stop {c : Char} (hc : isWordLike c = false) (cs : List Char) :
    pieces (c :: cs) = [c] :: pieces cs := by
  rw [pieces]
  split
  · rename_i heq
    rw [hc, Bool.false_and, if_neg (by simp), heq]
  · rfl

/-- Characters that go on with no word character have their pieces to themselves. -/
theorem pieces_append {bs : List Char} (hstop : ∀ c ∈ bs.head?, isWordLike c = false)
    (cs : List Char) : pieces (cs ++ bs) = pieces cs ++ pieces bs := by
  induction cs with
  | nil => rfl
  | cons c cs ih =>
      cases cs with
      | nil =>
          cases bs with
          | nil => simp [pieces]
          | cons b bs =>
              obtain ⟨word, rest, heq⟩ := pieces_cons b bs
              rw [List.singleton_append, pieces, heq]
              simp [hstop b rfl, pieces]
      | cons d cs =>
          obtain ⟨word, rest, heq⟩ := pieces_cons d cs
          rw [List.cons_append, pieces, ih, heq, pieces, heq]
          simp only [List.cons_append]
          split <;> rfl

/-- A word is one piece. -/
theorem pieces_word {word : List Char} (hne : word ≠ [])
    (hword : ∀ c ∈ word, isWordLike c = true) : pieces word = [word] := by
  induction word with
  | nil => exact absurd rfl hne
  | cons c word ih =>
      cases word with
      | nil => simp [pieces]
      | cons d word =>
          have hrest := ih (by simp) fun b hb => hword b (List.mem_cons_of_mem _ hb)
          have hc := hword c (by simp)
          have hd := hword d (by simp)
          rw [pieces, hrest]
          simp [hc, hd]

/-! ### Text of an operand -/

/-- The number of parentheses open after a piece. -/
def depthAfter (depth : Nat) (piece : List Char) : Nat :=
  if piece = ['('] then depth + 1 else if piece = [')'] then depth - 1 else depth

/-- The piece ends nothing where it stands: outside parentheses it is no comma, closes no
parenthesis, and is no keyword unless it is glued to what stands before it. -/
def Continues (depth : Nat) (previous : Option Char) (piece : List Char) : Prop :=
  depth = 0 → piece ≠ [','] ∧ piece ≠ [')'] ∧
    (previous.any State.glues = false → Keyword.ofWord? (.ofList piece) = none)

/-- Pieces that end nothing and leave no parenthesis open. -/
def Plain : Nat → Option Char → List (List Char) → Prop
  | depth, _, [] => depth = 0
  | depth, previous, piece :: rest =>
    Continues depth previous piece ∧ Plain (depthAfter depth piece) piece.getLast? rest

/-- A text that is an operand wherever it stands: it has something in it, no blanks around
it, and only text of an operand inside. -/
structure IsOperand (text : String) : Prop where
  nonempty : text.toList ≠ []
  trimmed : Text.trimChars text.toList = text.toList
  plain : Plain 0 none (pieces text.toList)

/-- Nothing is to be trimmed from a text that begins and ends with no blank. -/
theorem isOperand_of_ends {text : String} {first : Char} {rest cs last : List Char}
    (hfirst : text.toList = first :: rest) (hlast : text.toList = cs ++ last)
    (hne : last ≠ []) (hblank : isBlank first = false) (hblank' : ∀ c ∈ last, isBlank c = false)
    (hplain : Plain 0 none (pieces text.toList)) : IsOperand text := by
  refine ⟨by rw [hfirst]; exact List.cons_ne_nil _ _, trimChars_eq_self ?_ ?_, hplain⟩
  · intro c hc
    rw [hfirst, List.head?_cons] at hc
    cases hc
    exact hblank
  · intro c hc
    rw [hlast, List.getLast?_append_of_ne_nil _ hne] at hc
    exact hblank' c (List.mem_of_getLast? hc)

/-- No single character is a keyword. -/
theorem ofWord?_singleton (c : Char) : Keyword.ofWord? (.ofList [c]) = none := by
  rw [Keyword.ofWord?, List.find?_eq_none]
  intro k _ hk
  have hlength := congrArg (fun s => s.toList.length) (of_decide_eq_true hk)
  cases k <;> simp [Keyword.text] at hlength

/-- A single character other than these two ends nothing. -/
theorem continues_singleton {depth : Nat} {previous : Option Char} {c : Char} (hcomma : c ≠ ',')
    (hclose : c ≠ ')') : Continues depth previous [c] := fun _ =>
  ⟨by simpa using hcomma, by simpa using hclose, fun _ => ofWord?_singleton c⟩

/-- A word is no mark. -/
theorem ne_singleton_of_word {word : List Char} (hword : ∀ c ∈ word, isWordLike c = true)
    {c : Char} (hc : isWordLike c = false) : word ≠ [c] := by
  rintro rfl
  rw [hword c (by simp)] at hc
  cases hc

/-- A word ends nothing if it is glued or is no keyword. -/
theorem continues_word {depth : Nat} {previous : Option Char} {word : List Char}
    (hword : ∀ c ∈ word, isWordLike c = true)
    (h : previous.any State.glues = false → Keyword.ofWord? (.ofList word) = none) :
    Continues depth previous word := fun _ =>
  ⟨ne_singleton_of_word hword rfl, ne_singleton_of_word hword rfl, h⟩

/-- Where nothing glues, it does not matter what the last character was. -/
theorem Plain.of_not_glues {depth : Nat} {previous previous' : Option Char}
    {ps : List (List Char)} (h : Plain depth previous ps)
    (hprevious : previous.any State.glues = false) : Plain depth previous' ps := by
  cases ps with
  | nil => exact h
  | cons piece ps =>
      refine ⟨fun hdepth => ?_, h.2⟩
      obtain ⟨hcomma, hclose, hword⟩ := h.1 hdepth
      exact ⟨hcomma, hclose, fun _ => hword hprevious⟩

/-- A character that is a piece of its own and ends no operand. -/
def Ordinary (c : Char) : Prop :=
  isWordLike c = false ∧ c ≠ '(' ∧ c ≠ ')' ∧ c ≠ ','

instance (c : Char) : Decidable (Ordinary c) :=
  inferInstanceAs (Decidable (isWordLike c = false ∧ c ≠ '(' ∧ c ≠ ')' ∧ c ≠ ','))

theorem plain_cons {c : Char} (hc : Ordinary c) (previous : Option Char) {cs : List Char}
    (h : Plain 0 (some c) (pieces cs)) : Plain 0 previous (pieces (c :: cs)) := by
  obtain ⟨hstop, hopen, hclose, hcomma⟩ := hc
  rw [pieces_cons_of_stop hstop]
  refine ⟨continues_singleton hcomma hclose, ?_⟩
  rwa [depthAfter, if_neg (by simpa using hopen), if_neg (by simpa using hclose)]

/-- A word that is glued to what stands before it ends no operand. -/
theorem plain_word {glue : Char} (hglue : State.glues glue = true) {word : List Char}
    (hword : ∀ c ∈ word, isWord c = true) {cs : List Char}
    (hstop : ∀ c ∈ cs.head?, isWordLike c = false)
    (h : ∀ previous, Plain 0 previous (pieces cs)) :
    Plain 0 (some glue) (pieces (word ++ cs)) := by
  by_cases hne : word = []
  · rw [hne, List.nil_append]
    exact h _
  · have hlike : ∀ c ∈ word, isWordLike c = true := fun c hc => isWordLike_of_isWord (hword c hc)
    rw [pieces_append hstop, pieces_word hne hlike]
    refine ⟨continues_word hlike fun hunglued => ?_, ?_⟩
    · rw [Option.any_some, hglue] at hunglued
      cases hunglued
    · rw [depthAfter, if_neg (ne_singleton_of_word hlike rfl),
        if_neg (ne_singleton_of_word hlike rfl)]
      exact h _

namespace State

/-! ### Reading one piece -/

theorem keyword?_of_continues {s : State} {piece : List Char}
    (h : Continues s.depth s.previous piece) : s.keyword? piece = none := by
  rw [keyword?]
  by_cases hdepth : s.depth = 0
  · by_cases hglues : s.previous.any glues = true
    · simp [hglues]
    · rw [Bool.not_eq_true] at hglues
      simp [hdepth, hglues, (h hdepth).2.2 hglues]
  · simp [hdepth]

theorem keyword?_singleton (s : State) (c : Char) : s.keyword? [c] = none := by
  rw [keyword?, ofWord?_singleton, ite_self]

theorem take_of_current {s : State} {k : Keyword} {operand : List Char}
    (h : s.current = some (k, operand)) (cs : List Char) :
    s.take cs = .ok { s with current := some (k, operand ++ cs) } := by
  rw [take, h]

/-- Before the first clause blanks are passed over. -/
theorem take_of_blanks {s : State} (h : s.current = none) {cs : List Char}
    (hcs : cs.all isBlank = true) : s.take cs = .ok s := by
  rw [take, h]
  exact if_pos hcs

/-- Before the first clause there is no text. -/
theorem take_of_leading {s : State} (h : s.current = none) {cs : List Char}
    (hcs : cs.all isBlank = false) :
    s.take cs = .error (.expression (.leadingText (.ofList cs))) := by
  rw [take, h]
  exact if_neg (by simp [hcs])

/-- Taking text in leaves the depth as it is. -/
theorem take_eq_map (s : State) (cs : List Char) :
    s.take cs = (fun s' => { s' with depth := s.depth }) <$> s.take cs := by
  unfold take
  split
  · rfl
  · split <;> rfl

/-- A piece that ends nothing is text. -/
theorem step_text {s : State} {piece : List Char} (h : Continues s.depth s.previous piece) :
    s.step piece = (fun s' => { s' with
      depth := depthAfter s.depth piece
      position := s.position + piece.length
      previous := piece.getLast? }) <$> s.take piece := by
  unfold step act
  rw [keyword?_of_continues h]
  split
  · rename_i heq
    cases heq
  · cases s.take ['('] <;> rfl
  · -- A parenthesis is closed or a comma read: both are text only inside parentheses.
    have hdepth : s.depth ≠ 0 := fun hzero => (h hzero).2.1 rfl
    rw [if_neg hdepth]
    cases s.take [')'] <;> rfl
  · have hdepth : s.depth ≠ 0 := fun hzero => (h hzero).1 rfl
    rw [if_neg hdepth, take_eq_map]
    cases s.take [','] <;> rfl
  · rename_i piece _ _ _ hopen hclose _
    rw [depthAfter, if_neg (by simpa using hopen), if_neg (by simpa using hclose), take_eq_map]
    cases s.take piece <;> rfl

/-- A piece that ends nothing is put to the current operand. -/
theorem step_of_continues {s : State} {k : Keyword} {operand piece : List Char}
    (hcurrent : s.current = some (k, operand)) (h : Continues s.depth s.previous piece) :
    s.step piece = .ok { s with
      current := some (k, operand ++ piece)
      depth := depthAfter s.depth piece
      position := s.position + piece.length
      previous := piece.getLast? } := by
  rw [step_text h, take_of_current hcurrent]
  rfl

/-- A keyword completes the clause begun and begins the next. -/
theorem step_keyword {s : State} (k : Keyword) (hdepth : s.depth = 0)
    (hprevious : s.previous.any glues = false) :
    s.step k.text.toList = (fun s' => { s' with
      current := some (k, [])
      position := s.position + k.text.toList.length
      previous := k.text.toList.getLast? }) <$> s.finishClause := by
  have hkeyword : s.keyword? k.text.toList = some k := by
    rw [keyword?, hdepth, hprevious]
    cases k <;> rfl
  unfold step act
  rw [hkeyword]
  cases s.finishClause <;> rfl

/-- A comma outside parentheses completes the current operand. -/
theorem step_comma {s : State} (hdepth : s.depth = 0) :
    s.step [','] = (fun s' => { s' with
      position := s.position + 1
      previous := some ',' }) <$> s.finishOperand := by
  unfold step act
  rw [keyword?_singleton]
  simp only [hdepth, if_true]
  cases s.finishOperand <;> rfl

/-- No parenthesis is closed that was not opened. -/
theorem step_unopened {s : State} (hdepth : s.depth = 0) :
    s.step [')'] = .error (.expression (.unbalancedClose s.position)) := by
  unfold step act
  rw [keyword?_singleton]
  simp only [hdepth, if_true]
  rfl

end State

end ItemStore.ClauseText
