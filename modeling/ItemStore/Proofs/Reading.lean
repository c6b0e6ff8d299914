/-
The reader takes in just what the grammar allows.

A reader between two pieces of a text knows how many parentheses are open and what the last
character was (`Between`), and that is enough for it to take the next piece for the cut or
the text that it is (`Between.role`).  What it will give in the end is then settled by its
current operand, the clauses it has completed and the rest of the text (`Gives`): the rest up
to the first cut belongs to the current operand, and everything after that is as the grammar
says.  A piece of each kind takes one such statement to another, about the state after the
piece and the text after it (`gives_step_iff`), and the reader is then between two pieces
again (`between_of_step`).  By induction over the pieces a reader in any state comes to an end
exactly if the statement holds (`complete_eq_ok_iff`), and for a reader that has read nothing
the statement is the grammar (`gives_start_iff`).
-/
import ItemStore.Proofs.Grammar

namespace ItemStore

namespace ClauseText

open Text

/-! ### Between two pieces -/

/-- A place between two pieces of a text, with what a reader that has come to it knows: the
number of parentheses open, and the last character. -/
structure Between (depth : Nat) (previous : Option Char) (before after : List Char) : Prop where
  depth : (depth : Int) = nesting before
  previous : previous = before.getLast?
  /-- No word goes on across the place. -/
  apart : ∀ c ∈ before.getLast?, isWordLike c = true → ∀ d ∈ after.head?, isWordLike d = false

/-- What a piece is where it stands: a cut, a parenthesis that was not opened, or text. -/
inductive Role (depth : Nat) (previous : Option Char) : Option Cut → List Char → Prop
  | comma (outside : depth = 0) : Role depth previous (some .comma) [',']
  | keyword (k : Keyword) (outside : depth = 0) (unglued : previous.any State.glues = false) :
    Role depth previous (some (.keyword k)) k.text.toList
  | unopened (outside : depth = 0) : Role depth previous none [')']
  | text {piece : List Char} (continues : Continues depth previous piece) :
    Role depth previous none piece

/-- Where no word goes on, what a word is attached to is what glues it. -/
theorem any_attaches {before : List Char} (apart : ∀ c ∈ before.getLast?, isWordLike c = false) :
    before.getLast?.any attaches = before.getLast?.any State.glues := by
  cases hlast : before.getLast? with
  | none => rfl
  | some c =>
      rw [Option.any_some, Option.any_some, attaches, State.glues, apart c hlast, Bool.false_or]

section Between

variable {depth : Nat} {previous : Option Char} {before rest p : List Char}

theorem Between.start (cs : List Char) : Between 0 none [] cs :=
  ⟨rfl, rfl, by simp⟩

theorem Between.depth_eq_zero_iff (h : Between depth previous before rest) :
    depth = 0 ↔ nesting before = 0 := by
  rw [← h.depth, Int.natCast_eq_zero]

/-- Before a word, what it is attached to is what glues it. -/
theorem Between.attaches_eq (h : Between depth previous before (p ++ rest)) (some : p ≠ [])
    (word : ∀ c ∈ p, isWordLike c = true) :
    before.getLast?.any attaches = previous.any State.glues := by
  obtain ⟨d, p, rfl⟩ := List.exists_cons_of_ne_nil some
  rw [h.previous]
  refine any_attaches fun c hlast => ?_
  by_contra hword
  have hd := h.apart c hlast (by simpa using hword) d rfl
  rw [word d (by simp)] at hd
  cases hd

/-- **What a reader knows settles what the next piece is.** -/
theorem Between.role (h : Between depth previous before (p ++ rest)) (hp : Piece p rest) :
    Role depth previous (cut? before (p ++ rest)) p := by
  by_cases outside : depth = 0
  · have hnesting := h.depth_eq_zero_iff.mp outside
    cases hp with
    | @mark c stop =>
        by_cases hcomma : c = ','
        · subst hcomma
          rw [List.singleton_append, cut?_comma, if_pos hnesting]
          exact .comma outside
        · rw [List.singleton_append, cut?_mark stop hcomma]
          by_cases hclose : c = ')'
          · subst hclose
            exact .unopened outside
          · exact .text (continues_singleton hcomma hclose)
    | word some word stop =>
        rw [cut?_word some word stop, h.attaches_eq some word]
        by_cases unglued : previous.any State.glues = false
        · rw [if_pos ⟨hnesting, unglued⟩]
          cases hword : Keyword.ofWord? (.ofList p) with
          | none => exact .text (continues_word word fun _ => hword)
          | some k =>
              have htext : p = k.text.toList := by
                rw [ofWord?_eq_some_iff.mp hword, String.toList_ofList]
              rw [htext]
              exact .keyword k outside unglued
        · rw [if_neg fun hand => unglued hand.2]
          exact .text (continues_word word fun hunglued => absurd hunglued unglued)
  · have hnesting : nesting before ≠ 0 := fun hzero => outside (h.depth_eq_zero_iff.mpr hzero)
    rw [cut?, if_neg hnesting]
    exact .text fun hzero => absurd hzero outside

/-- After a piece that closes no parenthesis but one that is open, the reader is between
pieces again. -/
theorem Between.next (h : Between depth previous before (p ++ rest)) (hp : Piece p rest)
    (hopened : depth = 0 → p ≠ [')']) :
    Between (depthAfter depth p) p.getLast? (before ++ p) rest := by
  have hlast : (before ++ p).getLast? = p.getLast? :=
    List.getLast?_append_of_ne_nil _ hp.ne_nil
  refine ⟨?_, hlast.symm, ?_⟩
  · rw [nesting_append, ← h.depth, hp.nesting_eq, depthAfter]
    by_cases hopen : p = ['(']
    · rw [if_pos hopen, if_pos hopen, Int.natCast_succ]
    · by_cases hclose : p = [')']
      · have hdepth : depth ≠ 0 := fun hzero => hopened hzero hclose
        rw [if_neg hopen, if_neg hopen, if_pos hclose, if_pos hclose]
        omega
      · rw [if_neg hopen, if_neg hopen, if_neg hclose, if_neg hclose, Int.add_zero]
  · rw [hlast]
    cases hp with
    | mark stop =>
        intro c hc hword
        obtain rfl : _ = c := Option.some.inj hc
        exact absurd hword (by simpa using stop)
    | word some word stop => exact fun c _ _ => stop

/-- After text that is so. -/
theorem Between.after_text (h : Between depth previous before (p ++ rest)) (hp : Piece p rest)
    (continues : Continues depth previous p) :
    Between (depthAfter depth p) p.getLast? (before ++ p) rest :=
  h.next hp fun hzero => (continues hzero).2.1

/-- After a cut it is so, and the depth is what it was. -/
theorem Between.after_cut (h : Between depth previous before (p ++ rest)) (hp : Piece p rest)
    (cut : Cut) (hcut : p = cut.text) : Between depth p.getLast? (before ++ p) rest := by
  have hmarks : p ≠ ['('] ∧ p ≠ [')'] := by
    rw [hcut]
    cases cut with
    | comma => decide
    | keyword k => cases k <;> decide
  have hnext := h.next hp fun _ => hmarks.2
  rwa [depthAfter, if_neg hmarks.1, if_neg hmarks.2] at hnext

/-- Where parentheses close, none is closed that is not open. -/
theorem Between.opened (h : Between depth previous before (p ++ rest)) (hp : Piece p rest)
    (hcloses : Closes before (p ++ rest)) (outside : depth = 0) : p ≠ [')'] := by
  rintro rfl
  have hnested := ((closes_piece hp hcloses.nested).mp hcloses).nested
  rw [nesting_append, h.depth_eq_zero_iff.mp outside] at hnested
  exact absurd hnested (by decide)

end Between

/-! ### What a reader will give -/

/-- The cuts to come, each with the stretch that follows it, and before them the clause that
is begun with what its current operand will be. -/
def begun (current : Option (Keyword × List Char)) (before after : List Char) :
    List (Cut × List Char) :=
  match current with
  | none => segments before after
  | some (k, operand) => (.keyword k, operand ++ stretch before after) :: segments before after

/-- With this current operand and these clauses complete, and this text still to come, a
reader will give those clauses. -/
structure Gives (current : Option (Keyword × List Char)) (done : Clauses)
    (before after : List Char) (c : Clauses) : Prop where
  closes : Closes before after
  opens : current = none → (∀ ch ∈ stretch before after, isBlank ch = true) ∧
    ∀ seg ∈ (segments before after).head?, seg.1 ≠ .comma
  filled : ∀ seg ∈ begun current before after, HasText seg.2
  operands : ∀ k, c.operands k = done.operands k ++ operandsUnder k (begun current before after)

/-- An operand that is over is complete, and the next begins with nothing. -/
theorem operandsUnder_cut {k₀ k : Keyword} {cut : Cut} (hk : cut.keyword?.or (some k₀) = some k)
    (k' : Keyword) (operand text : List Char) (segs : List (Cut × List Char)) :
    operandsUnder k' ((.keyword k₀, operand) :: (cut, text) :: segs) =
      (if k' = k₀ then [.ofList (trimChars operand)] else []) ++
        operandsUnder k' ((.keyword k, text) :: segs) := by
  have hfirst : under k' none ((.keyword k₀, operand) :: (cut, text) :: segs) =
      (if k' = k₀ then [operand] else []) ++ under k' none ((.keyword k, text) :: segs) := by
    have hrest : under k' (some k₀) ((cut, text) :: segs) =
        under k' none ((.keyword k, text) :: segs) := by
      rw [under, under, hk]
      rfl
    rw [under, Cut.keyword?, Option.some_or, hrest]
    by_cases hk' : k' = k₀
    · rw [if_pos (by rw [hk']), if_pos hk', List.singleton_append]
    · rw [if_neg (by simpa using Ne.symm hk'), if_neg hk', List.nil_append]
  rw [operandsUnder, hfirst, List.map_append, operandsUnder]
  by_cases hk' : k' = k₀
  · rw [if_pos hk', if_pos hk', List.map_singleton]
  · rw [if_neg hk', if_neg hk', List.map_nil]

section Gives

variable {done c : Clauses} {before rest p : List Char}

/-- At the end the current operand is the last. -/
theorem gives_nil_some {k : Keyword} {operand : List Char} :
    Gives (some (k, operand)) done before [] c ↔
      nesting before = 0 ∧ trimChars operand ≠ [] ∧
        c = done.push k (.ofList (trimChars operand)) := by
  have hbegun : begun (some (k, operand)) before [] = [(.keyword k, operand)] := by
    rw [begun, stretch, segments, List.append_nil]
  have hoperands : ∀ k', operandsUnder k' [(.keyword k, operand)] =
      if k' = k then [.ofList (trimChars operand)] else [] := by
    intro k'
    cases k <;> cases k' <;> rfl
  rw [trimChars_ne_nil_iff]
  constructor
  · intro h
    refine ⟨by simpa using h.closes.last, ?_, Clauses.ext_operands fun k' => ?_⟩
    · exact h.filled (.keyword k, operand) (by rw [hbegun]; exact List.mem_singleton_self _)
    · rw [h.operands, hbegun, hoperands, Clauses.operands_push]
  · rintro ⟨hnesting, htext, rfl⟩
    refine ⟨closes_nil.mpr hnesting, by simp, ?_, fun k' => ?_⟩
    · rw [hbegun]
      simpa using htext
    · rw [hbegun, hoperands, Clauses.operands_push]

theorem gives_nil_none : Gives none done before [] c ↔ nesting before = 0 ∧ c = done := by
  constructor
  · intro h
    refine ⟨by simpa using h.closes.last, Clauses.ext_operands fun k => ?_⟩
    rw [h.operands k]
    exact List.append_nil _
  · rintro ⟨hnesting, rfl⟩
    exact ⟨closes_nil.mpr hnesting, fun _ => ⟨by simp [stretch], by simp [segments]⟩,
      by simp [begun, segments], fun k => (List.append_nil _).symm⟩

/-- Text is put to the current operand. -/
theorem gives_text_some (hp : Piece p rest) (hnested : 0 ≤ nesting before) {k : Keyword}
    {operand : List Char} (hcut : cut? before (p ++ rest) = none) :
    Gives (some (k, operand)) done before (p ++ rest) c ↔
      Gives (some (k, operand ++ p)) done (before ++ p) rest c := by
  have hbegun : begun (some (k, operand)) before (p ++ rest) =
      begun (some (k, operand ++ p)) (before ++ p) rest := by
    rw [begun, begun, stretch_piece hp, segments_piece hp, hcut, if_neg (by simp),
      List.append_assoc]
  constructor
  · intro h
    exact ⟨(closes_piece hp hnested).mp h.closes, by simp,
      hbegun ▸ h.filled, hbegun ▸ h.operands⟩
  · intro h
    exact ⟨(closes_piece hp hnested).mpr h.closes, by simp,
      hbegun ▸ h.filled, hbegun ▸ h.operands⟩

/-- Before the first clause text has to be blank. -/
theorem gives_text_none (hp : Piece p rest) (hnested : 0 ≤ nesting before)
    (hcut : cut? before (p ++ rest) = none) :
    Gives none done before (p ++ rest) c ↔
      (∀ ch ∈ p, isBlank ch = true) ∧ Gives none done (before ++ p) rest c := by
  have hstretch : stretch before (p ++ rest) = p ++ stretch (before ++ p) rest := by
    rw [stretch_piece hp, hcut, if_neg (by simp)]
  have hsegments : segments before (p ++ rest) = segments (before ++ p) rest := by
    rw [segments_piece hp, hcut]
  constructor
  · rintro ⟨hcloses, hopens, hfilled, hoperands⟩
    rw [begun, hsegments] at hfilled
    simp only [begun, hsegments] at hoperands
    rw [hstretch, hsegments] at hopens
    obtain ⟨hblank, hfirst⟩ := hopens rfl
    exact ⟨fun ch hch => hblank ch (List.mem_append_left _ hch),
      (closes_piece hp hnested).mp hcloses,
      fun _ => ⟨fun ch hch => hblank ch (List.mem_append_right _ hch), hfirst⟩,
      hfilled, hoperands⟩
  · rintro ⟨hp', hcloses, hopens, hfilled, hoperands⟩
    obtain ⟨hblank, hfirst⟩ := hopens rfl
    refine ⟨(closes_piece hp hnested).mpr hcloses, fun _ => ⟨?_, by rwa [hsegments]⟩, ?_, ?_⟩
    · intro ch hch
      rw [hstretch] at hch
      exact (List.mem_append.mp hch).elim (hp' ch) (hblank ch)
    · rwa [begun, hsegments]
    · intro k
      rw [begun, hsegments]
      exact hoperands k

/-- A cut completes the current operand. -/
theorem gives_cut_some (hp : Piece p rest) (hnested : 0 ≤ nesting before) {k₀ k : Keyword}
    {operand : List Char} {cut : Cut}
    (hcut : cut? before (p ++ rest) = some cut) (hk : cut.keyword?.or (some k₀) = some k) :
    Gives (some (k₀, operand)) done before (p ++ rest) c ↔ trimChars operand ≠ [] ∧
      Gives (some (k, [])) (done.push k₀ (.ofList (trimChars operand))) (before ++ p) rest c := by
  have hbegun : begun (some (k₀, operand)) before (p ++ rest) =
      (.keyword k₀, operand) :: (cut, stretch (before ++ p) rest) ::
        segments (before ++ p) rest := by
    rw [begun, stretch_piece hp, segments_piece hp, hcut, if_pos (by simp), List.append_nil]
  have hbegun' : begun (some (k, [])) (before ++ p) rest =
      (.keyword k, stretch (before ++ p) rest) :: segments (before ++ p) rest := rfl
  have hoperands : ∀ k', done.operands k' ++
      operandsUnder k' (begun (some (k₀, operand)) before (p ++ rest)) =
        (done.push k₀ (.ofList (trimChars operand))).operands k' ++
          operandsUnder k' (begun (some (k, [])) (before ++ p) rest) := by
    intro k'
    rw [hbegun, operandsUnder_cut hk, hbegun', Clauses.operands_push, List.append_assoc]
  rw [trimChars_ne_nil_iff]
  constructor
  · intro h
    have hfilled := h.filled
    rw [hbegun, List.forall_mem_cons, List.forall_mem_cons] at hfilled
    refine ⟨hfilled.1, (closes_piece hp hnested).mp h.closes, by simp, ?_,
      fun k' => (h.operands k').trans (hoperands k')⟩
    rw [hbegun', List.forall_mem_cons]
    exact hfilled.2
  · rintro ⟨htext, h⟩
    have hfilled := h.filled
    rw [hbegun', List.forall_mem_cons] at hfilled
    refine ⟨(closes_piece hp hnested).mpr h.closes, by simp, ?_,
      fun k' => (h.operands k').trans (hoperands k').symm⟩
    rw [hbegun, List.forall_mem_cons, List.forall_mem_cons]
    exact ⟨htext, hfilled⟩

/-- The first keyword begins the first clause. -/
theorem gives_keyword_none (hp : Piece p rest) (hnested : 0 ≤ nesting before) {k : Keyword}
    (hcut : cut? before (p ++ rest) = some (.keyword k)) :
    Gives none done before (p ++ rest) c ↔ Gives (some (k, [])) done (before ++ p) rest c := by
  have hbegun : begun none before (p ++ rest) = begun (some (k, [])) (before ++ p) rest := by
    rw [begun, begun, segments_piece hp, hcut, List.nil_append]
  constructor
  · intro h
    exact ⟨(closes_piece hp hnested).mp h.closes, by simp,
      hbegun ▸ h.filled, hbegun ▸ h.operands⟩
  · intro h
    refine ⟨(closes_piece hp hnested).mpr h.closes, fun _ => ⟨?_, ?_⟩,
      hbegun ▸ h.filled, hbegun ▸ h.operands⟩
    · rw [stretch_piece hp, hcut, if_pos (by simp)]
      simp
    · rw [segments_piece hp, hcut]
      simp

/-- No comma comes before the first keyword. -/
theorem not_gives_comma_none (hp : Piece p rest) (hcut : cut? before (p ++ rest) = some .comma) :
    ¬Gives none done before (p ++ rest) c := by
  intro h
  have hfirst := (h.opens rfl).2
  rw [segments_piece hp, hcut] at hfirst
  exact hfirst _ rfl rfl

end Gives

namespace State

/-! ### Completing an operand -/

/-- Completing the current operand takes something to be in it, and no more. -/
theorem finishOperand_eq_ok_iff {s s' : State} {k : Keyword} {operand : List Char}
    (hcurrent : s.current = some (k, operand)) :
    s.finishOperand = .ok s' ↔ trimChars operand ≠ [] ∧ { s with
      current := some (k, [])
      clauses := s.clauses.push k (.ofList (trimChars operand)) } = s' := by
  by_cases htext : trimChars operand = []
  · have hempty : s.finishOperand = .error (.expression (.emptyOperand k)) := by
      rw [finishOperand, hcurrent]
      simp [htext]
    rw [hempty]
    exact iff_of_false (fun h => by cases h) fun h => h.1 htext
  · rw [finishOperand_of_current hcurrent htext, and_iff_right htext, Except.ok.injEq]

/-- What is to hold when the current operand is complete. -/
theorem exists_finishOperand_iff {s : State} {k : Keyword} {operand : List Char}
    (hcurrent : s.current = some (k, operand)) (f : State → State) (P : State → Prop) :
    (∃ s', f <$> s.finishOperand = .ok s' ∧ P s') ↔ trimChars operand ≠ [] ∧ P (f { s with
      current := some (k, [])
      clauses := s.clauses.push k (.ofList (trimChars operand)) }) := by
  simp only [map_eq_ok, finishOperand_eq_ok_iff hcurrent]
  constructor
  · rintro ⟨_, ⟨_, ⟨htext, rfl⟩, rfl⟩, hP⟩
    exact ⟨htext, hP⟩
  · rintro ⟨htext, hP⟩
    exact ⟨_, ⟨_, ⟨htext, rfl⟩, rfl⟩, hP⟩

theorem finishClause_of_none {s : State} (hcurrent : s.current = none) :
    s.finishClause = .ok s := by
  rw [finishClause, hcurrent]
  rfl

theorem finishClause_of_some {s : State} {begun : Keyword × List Char}
    (hcurrent : s.current = some begun) : s.finishClause = s.finishOperand := by
  rw [finishClause, hcurrent]
  rfl

/-- Completing an operand or a clause leaves the depth as it is. -/
theorem depth_of_finishOperand {s s' : State} (h : s.finishOperand = .ok s') :
    s'.depth = s.depth := by
  cases hcurrent : s.current with
  | none =>
      rw [finishOperand, hcurrent] at h
      cases h
  | some begun =>
      obtain ⟨k, operand⟩ := begun
      obtain ⟨-, rfl⟩ := (finishOperand_eq_ok_iff hcurrent).mp h
      rfl

theorem depth_of_finishClause {s s' : State} (h : s.finishClause = .ok s') :
    s'.depth = s.depth := by
  cases hcurrent : s.current with
  | none =>
      rw [finishClause_of_none hcurrent] at h
      cases h
      rfl
  | some begun =>
      rw [finishClause_of_some hcurrent] at h
      exact depth_of_finishOperand h

/-! ### One piece

A reader will give after a piece what it will give before it, and nothing if it refuses the piece.
For a cut and for text this is said apart, with an operand begun and with none.
-/

section Pieces

variable {s s' : State} {before rest p : List Char} {c : Clauses}

theorem gives_comma_iff (hp : Piece [','] rest) (hnested : 0 ≤ nesting before)
    (hcut : cut? before ([','] ++ rest) = some .comma) (outside : s.depth = 0) :
    Gives s.current s.clauses before ([','] ++ rest) c ↔
      ∃ s', s.step [','] = .ok s' ∧ Gives s'.current s'.clauses (before ++ [',']) rest c := by
  rw [step_comma outside]
  cases hcurrent : s.current with
  | none =>
      rw [finishOperand, hcurrent]
      exact iff_of_false (not_gives_comma_none hp hcut) (by simp)
  | some begun =>
      obtain ⟨k, operand⟩ := begun
      rw [gives_cut_some hp hnested hcut rfl, exists_finishOperand_iff hcurrent]

theorem gives_keyword_iff {k : Keyword} (hp : Piece k.text.toList rest)
    (hnested : 0 ≤ nesting before)
    (hcut : cut? before (k.text.toList ++ rest) = some (.keyword k)) (outside : s.depth = 0)
    (unglued : s.previous.any glues = false) :
    Gives s.current s.clauses before (k.text.toList ++ rest) c ↔
      ∃ s', s.step k.text.toList = .ok s' ∧
        Gives s'.current s'.clauses (before ++ k.text.toList) rest c := by
  rw [step_keyword k outside unglued]
  cases hcurrent : s.current with
  | none =>
      rw [gives_keyword_none hp hnested hcut, finishClause_of_none hcurrent]
      simp only [map_eq_ok, Except.ok.injEq, exists_eq_left']
  | some begun =>
      obtain ⟨k₀, operand⟩ := begun
      rw [gives_cut_some hp hnested hcut rfl, finishClause_of_some hcurrent,
        exists_finishOperand_iff hcurrent]

theorem gives_text_iff (hp : Piece p rest) (hnested : 0 ≤ nesting before)
    (hcut : cut? before (p ++ rest) = none) (continues : Continues s.depth s.previous p) :
    Gives s.current s.clauses before (p ++ rest) c ↔
      ∃ s', s.step p = .ok s' ∧ Gives s'.current s'.clauses (before ++ p) rest c := by
  rw [step_text continues]
  cases hcurrent : s.current with
  | none =>
      rw [gives_text_none hp hnested hcut, ← List.all_eq_true]
      cases hblank : p.all isBlank with
      | false =>
          rw [take_of_leading hcurrent hblank]
          exact iff_of_false (fun h => Bool.false_ne_true h.1) (by simp)
      | true =>
          rw [take_of_blanks hcurrent hblank, and_iff_right rfl]
          simp only [map_eq_ok, Except.ok.injEq, exists_eq_left', hcurrent]
  | some begun =>
      obtain ⟨k, operand⟩ := begun
      rw [gives_text_some hp hnested hcut, take_of_current hcurrent]
      simp only [map_eq_ok, Except.ok.injEq, exists_eq_left']

/-- **Reading a piece leaves what will be given as it is.** -/
theorem gives_step_iff (hbetween : Between s.depth s.previous before (p ++ rest))
    (hp : Piece p rest) :
    Gives s.current s.clauses before (p ++ rest) c ↔
      ∃ s', s.step p = .ok s' ∧ Gives s'.current s'.clauses (before ++ p) rest c := by
  have hnested : 0 ≤ nesting before := by
    rw [← hbetween.depth]
    exact Int.natCast_nonneg _
  have hrole := hbetween.role hp
  generalize hcut : cut? before (p ++ rest) = cut? at hrole
  cases hrole with
  | comma outside => exact gives_comma_iff hp hnested hcut outside
  | keyword k outside unglued => exact gives_keyword_iff hp hnested hcut outside unglued
  | unopened outside =>
      rw [step_unopened outside]
      exact iff_of_false (fun h => hbetween.opened hp h.closes outside rfl) (by simp)
  | text continues => exact gives_text_iff hp hnested hcut continues

/-- After a piece that is taken, a reader is between two pieces again. -/
theorem between_of_step (hbetween : Between s.depth s.previous before (p ++ rest))
    (hp : Piece p rest) (hstep : s.step p = .ok s') :
    Between s'.depth s'.previous (before ++ p) rest := by
  have hrole := hbetween.role hp
  generalize cut? before (p ++ rest) = cut? at hrole
  cases hrole with
  | comma outside =>
      rw [step_comma outside] at hstep
      obtain ⟨s₁, hfinish, rfl⟩ := map_eq_ok.mp hstep
      show Between s₁.depth (some ',') _ _
      rw [depth_of_finishOperand hfinish]
      exact hbetween.after_cut hp .comma rfl
  | keyword k outside unglued =>
      rw [step_keyword k outside unglued] at hstep
      obtain ⟨s₁, hfinish, rfl⟩ := map_eq_ok.mp hstep
      show Between s₁.depth k.text.toList.getLast? _ _
      rw [depth_of_finishClause hfinish]
      exact hbetween.after_cut hp (.keyword k) rfl
  | unopened outside =>
      rw [step_unopened outside] at hstep
      cases hstep
  | text continues =>
      rw [step_text continues] at hstep
      obtain ⟨s₁, -, rfl⟩ := map_eq_ok.mp hstep
      exact hbetween.after_text hp continues

end Pieces

/-! ### Reading to the end -/

/-- Reads the rest of a text from a state on. -/
def complete (s : State) (cs : List Char) : Except Error Clauses := do
  (← s.run cs).finish

theorem complete_piece {p rest : List Char} (hp : Piece p rest) (s : State) :
    s.complete (p ++ rest) = s.step p >>= fun s' => s'.complete rest := by
  rw [complete, run, hp.pieces_eq, List.foldlM_cons, bind_assoc]
  rfl

theorem finish_eq_ok_iff {s : State} {c : Clauses} :
    s.finish = .ok c ↔ s.depth = 0 ∧ ∃ s', s.finishClause = .ok s' ∧ s'.clauses = c := by
  rw [finish]
  by_cases outside : s.depth = 0
  · rw [if_neg (by omega), and_iff_right outside, bind_eq_ok]
    simp only [pure, Except.pure, Except.ok.injEq]
  · rw [if_pos (by omega)]
    exact iff_of_false (fun h => by cases h) fun h => outside h.1

/-- At the end a reader gives what it has, the operand that it was at among it. -/
theorem complete_nil_iff {s : State} {before : List Char} {c : Clauses}
    (hbetween : Between s.depth s.previous before []) :
    s.complete [] = .ok c ↔ Gives s.current s.clauses before [] c := by
  have hfinish : s.complete [] = s.finish := rfl
  rw [hfinish, finish_eq_ok_iff, hbetween.depth_eq_zero_iff]
  cases hcurrent : s.current with
  | none =>
      rw [gives_nil_none, finishClause_of_none hcurrent]
      simp only [Except.ok.injEq, exists_eq_left', @eq_comm _ c]
  | some begun =>
      obtain ⟨k, operand⟩ := begun
      rw [gives_nil_some, finishClause_of_some hcurrent]
      simp only [finishOperand_eq_ok_iff hcurrent, and_assoc, exists_and_left,
        exists_eq_left', @eq_comm _ c]

/-- **What a reader will give is what it gives.** -/
theorem complete_eq_ok_iff {c : Clauses} (after : List Char) :
    ∀ {s : State} {before : List Char}, Between s.depth s.previous before after →
      (s.complete after = .ok c ↔ Gives s.current s.clauses before after c) := by
  induction after using piece_induction with
  | nil => exact complete_nil_iff
  | piece p rest hp ih =>
      intro s before hbetween
      rw [complete_piece hp, bind_eq_ok, gives_step_iff hbetween hp]
      refine exists_congr fun s' => and_congr_right fun hstep => ?_
      exact ih (between_of_step hbetween hp hstep)

end State

/-! ### A text from its beginning -/

theorem read_eq_ok_iff {text : String} {c : Clauses} :
    Clauses.read text = .ok c ↔ Gives none ∅ [] text.toList c :=
  State.complete_eq_ok_iff (s := {}) text.toList (Between.start _)

/-- A reader that has read nothing will give what the grammar says. -/
theorem gives_start_iff {cs : List Char} {c : Clauses} :
    Gives none ∅ [] cs c ↔
      Grammatical cs ∧ ∀ k, c.operands k = operandsUnder k (segments [] cs) := by
  have hoperands : ∀ k, (∅ : Clauses).operands k ++ operandsUnder k (begun none [] cs) =
      operandsUnder k (segments [] cs) := by
    intro k
    rw [Clauses.operands_empty, List.nil_append, begun]
  constructor
  · intro h
    exact ⟨⟨h.closes, opens_iff.mpr (h.opens rfl), h.filled⟩,
      fun k => (h.operands k).trans (hoperands k)⟩
  · rintro ⟨h, hk⟩
    exact ⟨h.closes, fun _ => opens_iff.mp h.opens, h.filled,
      fun k => (hk k).trans (hoperands k).symm⟩

/-- A keyword has operands if it is a cut. -/
theorem operandsUnder_ne_nil_iff {k : Keyword} {cs : List Char} :
    operandsUnder k (segments [] cs) ≠ [] ↔
      ∃ part rest, part ++ rest = cs ∧ cut? part rest = some (.keyword k) := by
  have hcuts := mem_segments_iff (.keyword k) cs []
  simp only [List.nil_append] at hcuts
  rw [← hcuts, operandsUnder, Ne, List.map_eq_nil_iff]
  constructor
  · intro h
    rcases mem_of_under_ne_nil h with hat | hmem
    · cases hat
    · exact hmem
  · rintro ⟨text, hmem⟩
    exact under_ne_nil_of_mem hmem

end ClauseText

namespace Clauses

open ClauseText

theorem exists_operands (f : Keyword → List String) : ∃ c : Clauses, ∀ k, c.operands k = f k :=
  ⟨⟨f .set, f .add, f .remove, f .delete⟩, fun k => by cases k <;> rfl⟩

/-- **Reading takes in exactly the grammar.**  A text is read if and only if it is
grammatical; each keyword then has the trimmed stretches under it as its operands, in the
order of the text, and has a clause if and only if it is a cut of the text. -/
theorem read_iff_grammatical (text : String) :
    ((∃ c, read text = .ok c) ↔ Grammatical text.toList) ∧
      ∀ c, read text = .ok c → ∀ k,
        c.operands k = operandsUnder k (segments [] text.toList) ∧
        (c.contains k = true ↔ ∃ part rest, part ++ rest = text.toList ∧
          cut? part rest = some (.keyword k)) := by
  constructor
  · constructor
    · rintro ⟨c, hread⟩
      exact (gives_start_iff.mp (read_eq_ok_iff.mp hread)).1
    · intro h
      obtain ⟨c, hc⟩ := exists_operands fun k => operandsUnder k (segments [] text.toList)
      exact ⟨c, read_eq_ok_iff.mpr (gives_start_iff.mpr ⟨h, hc⟩)⟩
  · intro c hread k
    have hoperands := (gives_start_iff.mp (read_eq_ok_iff.mp hread)).2 k
    refine ⟨hoperands, ?_⟩
    rw [← operandsUnder_ne_nil_iff, ← hoperands, contains]
    simp

theorem read_iff_grammatical_nested :
    let cs := "REMOVE #SET,l[0] SET a = f(:a, SET),b = :c REMOVE d".toList
    Grammatical cs ∧
      operandsUnder .set (segments [] cs) = ["a = f(:a, SET)", "b = :c"] ∧
      operandsUnder .remove (segments [] cs) = ["#SET", "l[0]", "d"] ∧
      ¬∃ part rest, part ++ rest = cs ∧ cut? part rest = some (.keyword .add) := by
  intro cs
  have hread : read "REMOVE #SET,l[0] SET a = f(:a, SET),b = :c REMOVE d" =
      .ok { set := ["a = f(:a, SET)", "b = :c"], remove := ["#SET", "l[0]", "d"] } := by
    decide +kernel
  obtain ⟨haccepts, hgives⟩ :=
    read_iff_grammatical "REMOVE #SET,l[0] SET a = f(:a, SET),b = :c REMOVE d"
  refine ⟨haccepts.mp ⟨_, hread⟩, (hgives _ hread .set).1.symm, (hgives _ hread .remove).1.symm, ?_⟩
  rw [← (hgives _ hread .add).2]
  decide

end Clauses

end ItemStore
