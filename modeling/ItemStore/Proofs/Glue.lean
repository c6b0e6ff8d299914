/-
Words that are keywords by what stands before them.

A reader that will give some clauses is, wherever it is on its way through a text, at work on an
operand that is the text it has read last, or has met no clause yet (`Arrives`).  Each piece
takes it from one place between two pieces to the next, and so it comes to every word of the text
(`arrives_of_read`).  There a keyword begins a clause with what comes after it, and any other word
is put to what stands before it.

Which of the two a word is that has the letters of a keyword, is settled by the text before it
alone: outside parentheses, and after no sigil and no separator, it is a keyword, even if a
separator and the rest of a path come after it (`read_keyword_word`).
-/
import ItemStore.Proofs.Canonical

namespace ItemStore

/-- The characters between these two parts of a text are kept where they stand, in an operand. -/
def Clauses.Keeps (c : Clauses) (before cs after : List Char) : Prop :=
  ∃ k lead tail, lead <:+ before ∧ tail <+: after ∧
    String.ofList (lead ++ cs ++ tail) ∈ c.operands k

namespace ClauseText

open Text

variable {c : Clauses} {before after rest p : List Char} {current : Option (Keyword × List Char)}
  {k : Keyword} {operand : List Char}

/-! ### On the way through a text -/

/-- A reader that has come to this place with this operand will give these clauses, and the
operand is what it has read last. -/
structure Arrives (c : Clauses) (before after : List Char)
    (current : Option (Keyword × List Char)) : Prop where
  gives : ∃ done, Gives current done before after c
  last : ∀ begun ∈ current, begun.2 <:+ before

/-- With nothing in the operand it does not matter what was read. -/
theorem Arrives.of_gives {done : Clauses} (h : Gives (some (k, [])) done before after c) :
    Arrives c before after (some (k, [])) where
  gives := ⟨done, h⟩
  last := by
    rintro _ ⟨⟩
    exact List.nil_suffix

theorem Arrives.text (h : Arrives c before (p ++ rest) (some (k, operand))) (hp : Piece p rest)
    (hcut : cut? before (p ++ rest) = none) :
    Arrives c (before ++ p) rest (some (k, operand ++ p)) := by
  obtain ⟨done, hgives⟩ := h.gives
  refine ⟨⟨done, (gives_text_some hp hgives.closes.nested hcut).mp hgives⟩, ?_⟩
  rintro _ ⟨⟩
  obtain ⟨part, hpart⟩ := h.last _ rfl
  exact ⟨part, by rw [← hpart, List.append_assoc]⟩

/-- Text before the first clause is blank. -/
theorem Arrives.leading (h : Arrives c before (p ++ rest) none) (hp : Piece p rest)
    (hcut : cut? before (p ++ rest) = none) :
    (∀ ch ∈ p, isBlank ch = true) ∧ Arrives c (before ++ p) rest none := by
  obtain ⟨done, hgives⟩ := h.gives
  obtain ⟨hblank, hnext⟩ := (gives_text_none hp hgives.closes.nested hcut).mp hgives
  exact ⟨hblank, ⟨done, hnext⟩, by simp⟩

theorem Arrives.keyword (h : Arrives c before (p ++ rest) current) (hp : Piece p rest)
    (hcut : cut? before (p ++ rest) = some (.keyword k)) :
    Arrives c (before ++ p) rest (some (k, [])) := by
  obtain ⟨done, hgives⟩ := h.gives
  have hnested := hgives.closes.nested
  cases current with
  | none => exact .of_gives ((gives_keyword_none hp hnested hcut).mp hgives)
  | some begun => exact .of_gives ((gives_cut_some hp hnested hcut rfl).mp hgives).2

theorem Arrives.comma (h : Arrives c before (p ++ rest) current) (hp : Piece p rest)
    (hcut : cut? before (p ++ rest) = some .comma) :
    ∃ k, Arrives c (before ++ p) rest (some (k, [])) := by
  obtain ⟨done, hgives⟩ := h.gives
  have hnested := hgives.closes.nested
  cases current with
  | none => exact absurd hgives (not_gives_comma_none hp hcut)
  | some begun => exact ⟨_, .of_gives ((gives_cut_some hp hnested hcut rfl).mp hgives).2⟩

/-- There is an operand for text that is not blank. -/
theorem Arrives.exists_text (h : Arrives c before (p ++ rest) current) (hp : Piece p rest)
    (hcut : cut? before (p ++ rest) = none) (hblank : ∀ ch ∈ p, isBlank ch = false) :
    ∃ k operand, Arrives c (before ++ p) rest (some (k, operand ++ p)) := by
  cases current with
  | some begun => exact ⟨_, _, h.text hp hcut⟩
  | none =>
      obtain ⟨ch, p, rfl⟩ := List.exists_cons_of_ne_nil hp.ne_nil
      have hleading := (h.leading hp hcut).1 ch (by simp)
      rw [hblank ch (by simp)] at hleading
      cases hleading

/-- From a place between two pieces to the next. -/
theorem Arrives.next (h : Arrives c before (p ++ rest) current) (hp : Piece p rest) :
    ∃ current', Arrives c (before ++ p) rest current' := by
  cases hcut : cut? before (p ++ rest) with
  | none =>
      cases current with
      | none => exact ⟨none, (h.leading hp hcut).2⟩
      | some begun => exact ⟨_, h.text hp hcut⟩
  | some cut =>
      cases cut with
      | keyword k => exact ⟨_, h.keyword hp hcut⟩
      | comma =>
          obtain ⟨k, hnext⟩ := h.comma hp hcut
          exact ⟨_, hnext⟩

/-- A piece is one before more text, if no word goes on across the place between them. -/
theorem Piece.append {mid : List Char} (hp : Piece p mid)
    (apart : ∀ c ∈ (p ++ mid).getLast?, isWordLike c = true →
      ∀ d ∈ rest.head?, isWordLike d = false) : Piece p (mid ++ rest) := by
  cases mid with
  | cons d mid => exact hp.of_head? (by simp)
  | nil =>
      cases hp with
      | mark stop => exact .mark stop _
      | word some word stop =>
          have hlast := List.getLast?_eq_getLast_of_ne_nil some
          refine .word some word (apart _ ?_ (word _ (List.getLast_mem some)))
          rw [List.append_nil]
          exact hlast

theorem Arrives.through (mid : List Char) :
    ∀ {before : List Char} {current : Option (Keyword × List Char)},
      Arrives c before (mid ++ rest) current →
      (∀ c ∈ mid.getLast?, isWordLike c = true → ∀ d ∈ rest.head?, isWordLike d = false) →
      ∃ current', Arrives c (before ++ mid) rest current' := by
  induction mid using piece_induction with
  | nil =>
      intro before current h _
      exact ⟨current, by rwa [List.append_nil]⟩
  | piece p mid hp ih =>
      intro before current h apart
      rw [List.append_assoc] at h
      obtain ⟨current', hnext⟩ := h.next (hp.append apart)
      rw [← List.append_assoc]
      refine ih hnext fun c hc => apart c ?_
      rw [List.getLast?_append, hc, Option.some_or]
      rfl

/-- A reader of a text comes to every place between two pieces. -/
theorem arrives_of_read {text : String} (hread : Clauses.read text = .ok c)
    (happend : before ++ rest = text.toList)
    (apart : ∀ c ∈ before.getLast?, isWordLike c = true →
      ∀ d ∈ rest.head?, isWordLike d = false) :
    ∃ current, Arrives c before rest current := by
  have hstart : Arrives c [] (before ++ rest) none :=
    ⟨⟨∅, happend ▸ read_eq_ok_iff.mp hread⟩, by simp⟩
  exact hstart.through before apart

/-! ### What becomes of an operand -/

theorem stretch_isPrefix (after : List Char) : ∀ before, stretch before after <+: after := by
  induction after with
  | nil => intro before; exact List.nil_prefix
  | cons c after ih =>
      intro before
      rw [stretch]
      split
      · exact List.nil_prefix
      · exact (List.prefix_cons_inj c).mpr (ih _)

/-- An operand goes on to the next cut. -/
theorem Arrives.mem (h : Arrives c before after (some (k, operand))) :
    .ofList (trimChars (operand ++ stretch before after)) ∈ c.operands k := by
  obtain ⟨done, hgives⟩ := h.gives
  rw [hgives.operands k, begun, operandsUnder, under]
  simp [Cut.keyword?]

/-- What was put to an operand and is not blank stays in it. -/
theorem Arrives.exists_tail {cs : List Char}
    (h : Arrives c before after (some (k, operand ++ cs))) (some : cs ≠ [])
    (hcs : ∀ ch ∈ cs, isBlank ch = false) :
    ∃ tail, tail <+: after ∧
      String.ofList (operand.dropWhile isBlank ++ cs ++ tail) ∈ c.operands k := by
  have hmem := h.mem
  rw [trimChars_around some hcs] at hmem
  have htail := List.rdropWhile_prefix isBlank (stretch before after)
  exact ⟨_, htail.trans (stretch_isPrefix after before), hmem⟩

theorem Arrives.keeps {cs : List Char} (h : Arrives c (before ++ cs) after (some (k, operand ++ cs)))
    (some : cs ≠ []) (hcs : ∀ ch ∈ cs, isBlank ch = false) : c.Keeps before cs after := by
  obtain ⟨part, hpart⟩ := h.last _ rfl
  rw [← List.append_assoc, List.append_left_inj] at hpart
  obtain ⟨tail, htail, hmem⟩ := h.exists_tail some hcs
  have hlead := List.dropWhile_suffix isBlank (l := operand)
  exact ⟨k, _, tail, hlead.trans ⟨part, hpart⟩, htail, hmem⟩

/-! ### Words with the letters of a keyword -/

theorem isWordLike_of_mem_text {k : Keyword} : ∀ c ∈ k.text.toList, isWordLike c = true := by
  rw [← List.all_eq_true]
  cases k <;> rfl

theorem text_ne_nil {k : Keyword} : k.text.toList ≠ [] := by
  cases k <;> decide

theorem piece_text (stop : ∀ c ∈ after.head?, isWordLike c = false) :
    Piece k.text.toList after :=
  .word text_ne_nil isWordLike_of_mem_text stop

theorem isBlank_of_isWordLike {c : Char} (hc : isWordLike c = true) : isBlank c = false := by
  by_contra hblank
  rw [isWordLike_of_isBlank (by simpa using hblank)] at hc
  cases hc

theorem isBlank_of_glues {c : Char} (hc : State.glues c = true) : isBlank c = false := by
  by_contra hblank
  rw [glues_of_blank (by simpa using hblank)] at hc
  cases hc

theorem isBlank_of_mem_text {k : Keyword} : ∀ c ∈ k.text.toList, isBlank c = false :=
  fun c hc => isBlank_of_isWordLike (isWordLike_of_mem_text c hc)

/-- A word with the letters of a keyword is one outside parentheses if nothing glues it to what
stands before it. -/
theorem cut?_keyword (k : Keyword) (start : ∀ c ∈ before.getLast?, isWordLike c = false)
    (stop : ∀ c ∈ after.head?, isWordLike c = false) :
    cut? before (k.text.toList ++ after) =
      if nesting before = 0 ∧ before.getLast?.any State.glues = false then some (.keyword k)
      else none := by
  have hword : Keyword.ofWord? (.ofList k.text.toList) = some k := by
    rw [ofWord?_eq_some_iff, String.ofList_toList]
  rw [cut?_word text_ne_nil isWordLike_of_mem_text stop, any_attaches start, hword]
  rfl

/-- A separator after a keyword is the first character of an operand. -/
theorem Arrives.separator (h : Arrives c before ('.' :: rest) (some (k, []))) :
    ∃ path, path <+: rest ∧ String.ofList ('.' :: path) ∈ c.operands k := by
  have hcut : cut? before (['.'] ++ rest) = none := cut?_mark (by decide) (by decide) _ _
  exact (h.text (.mark (by decide) rest) hcut).exists_tail (by simp)
    (List.forall_mem_singleton.mpr rfl)

/-- A word that is glued to what stands before it is kept with that. -/
theorem Arrives.keeps_glued {glue : Char}
    (h : Arrives c before (glue :: (k.text.toList ++ after)) current)
    (hglue : isWordLike glue = false) (glued : State.glues glue = true)
    (stop : ∀ ch ∈ after.head?, isWordLike ch = false) :
    c.Keeps before (glue :: k.text.toList) after := by
  have hcomma : glue ≠ ',' := by
    rintro rfl
    cases glued
  have hsigil : ∃ k' operand, Arrives c (before ++ [glue]) (k.text.toList ++ after)
      (some (k', operand ++ [glue])) :=
    h.exists_text (.mark hglue _) (cut?_mark hglue hcomma _ _)
      (List.forall_mem_singleton.mpr (isBlank_of_glues glued))
  obtain ⟨k', operand, hbefore⟩ := hsigil
  have hlast : ∀ ch ∈ (before ++ [glue]).getLast?, isWordLike ch = false := by
    simpa using hglue
  have hcut := cut?_keyword k hlast stop
  rw [if_neg (by simp [glued])] at hcut
  have hword := hbefore.text (piece_text stop) hcut
  rw [List.append_assoc, List.append_assoc] at hword
  exact hword.keeps (by simp)
    (List.forall_mem_cons.mpr ⟨isBlank_of_glues glued, isBlank_of_mem_text⟩)

end ClauseText

namespace Clauses

open ClauseText Text

/-- **What a word with the letters of a keyword does depends on the text before it alone.**
Outside parentheses and after no sigil and no separator it begins a clause: what comes after it
is an operand of the keyword, and where a separator comes after it, that operand begins with the
separator.  Anywhere else it begins nothing and is kept in an operand, together with the sigil or
separator before it. -/
theorem read_keyword_word {text : String} {c : Clauses} (hread : read text = .ok c) {k : Keyword}
    {before after : List Char} (happend : before ++ k.text.toList ++ after = text.toList)
    (start : ∀ ch ∈ before.getLast?, isWordLike ch = false)
    (stop : ∀ ch ∈ after.head?, isWordLike ch = false) :
    (nesting before = 0 → before.getLast?.any State.glues = false →
      cut? before (k.text.toList ++ after) = some (.keyword k) ∧
      .ofList (trimChars (stretch (before ++ k.text.toList) after)) ∈ c.operands k ∧
      ∀ rest, after = '.' :: rest →
        ∃ path, path <+: rest ∧ String.ofList ('.' :: path) ∈ c.operands k) ∧
    (nesting before ≠ 0 ∨ before.getLast?.any State.glues = true →
      cut? before (k.text.toList ++ after) = none ∧ c.Keeps before k.text.toList after) ∧
    ∀ lead glue, before = lead ++ [glue] → State.glues glue = true →
      c.Keeps lead (glue :: k.text.toList) after := by
  have hpiece : Piece k.text.toList after := piece_text stop
  have hcut := cut?_keyword k start stop
  rw [List.append_assoc] at happend
  obtain ⟨current, harrives⟩ := arrives_of_read hread happend fun ch hch hword =>
    absurd hword (by simp [start ch hch])
  refine ⟨fun outside unglued => ?_, fun hkept => ?_, fun lead glue hbefore glued => ?_⟩
  · rw [if_pos ⟨outside, unglued⟩] at hcut
    have hclause := harrives.keyword hpiece hcut
    refine ⟨hcut, hclause.mem, ?_⟩
    rintro rest rfl
    exact hclause.separator
  · rw [if_neg (by simpa [imp_iff_not_or] using hkept)] at hcut
    obtain ⟨k', operand, hword⟩ := harrives.exists_text hpiece hcut isBlank_of_mem_text
    exact ⟨hcut, hword.keeps text_ne_nil isBlank_of_mem_text⟩
  · subst hbefore
    have hglue : isWordLike glue = false := start glue (by simp)
    rw [List.append_assoc] at happend
    obtain ⟨current', hbefore⟩ := arrives_of_read hread happend fun ch _ _ d hd => by
      cases hd
      exact hglue
    exact hbefore.keeps_glued hglue glued stop

/-- A keyword as the last segment of a path. -/
theorem read_keyword_word_last_segment :
    let text := "SET a.ADD = f(:x, SET)"
    let c : Clauses := { set := ["a.ADD = f(:x, SET)"] }
    let before := "SET a.".toList
    let after := " = f(:x, SET)".toList
    read text = .ok c ∧ before ++ Keyword.add.text.toList ++ after = text.toList ∧
      (∀ ch ∈ before.getLast?, isWordLike ch = false) ∧
      (∀ ch ∈ after.head?, isWordLike ch = false) ∧
      cut? before (Keyword.add.text.toList ++ after) = none ∧
      c.Keeps "SET a".toList ".ADD".toList after := by
  intro text c before after
  have hread : read text = .ok c := by decide +kernel
  have happend : before ++ Keyword.add.text.toList ++ after = text.toList := by decide
  have start : ∀ ch ∈ before.getLast?, isWordLike ch = false := by
    rintro _ ⟨⟩
    rfl
  have stop : ∀ ch ∈ after.head?, isWordLike ch = false := by
    rintro _ ⟨⟩
    rfl
  obtain ⟨-, hkept, hglued⟩ := read_keyword_word hread happend start stop
  exact ⟨hread, happend, start, stop, (hkept (.inr (by decide))).1,
    hglued _ '.' (by decide) (by decide)⟩

/-- A keyword as the first segment of a path: the path is cut in two. -/
theorem read_cuts_path :
    let c : Clauses := { set := ["x ="], add := [".y"] }
    read "SET x = ADD.y" = .ok c ∧
      ¬c.Keeps "SET x = ".toList Keyword.add.text.toList ".y".toList := by
  intro c
  refine ⟨by decide +kernel, ?_⟩
  rintro ⟨k, lead, tail, -, -, hmem⟩
  have hletter : 'D' ∈ (String.ofList (lead ++ Keyword.add.text.toList ++ tail)).toList := by
    simp [Keyword.text]
  have hnone : ∀ o ∈ c.operands k, 'D' ∉ o.toList := by
    cases k <;> decide
  exact hnone _ hmem hletter

end Clauses

end ItemStore
