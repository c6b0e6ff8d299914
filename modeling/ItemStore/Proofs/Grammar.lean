/-
The grammar of update texts.

What the reader accepts can be said without a reader.  A cut is a comma outside parentheses,
or a whole word outside parentheses that is a keyword and not glued to what stands before it
(`cut?`); whether one begins at some place in a text is settled by the text on both sides of
the place.  A stretch is what stands between one cut and the next.  A text is accepted if its
parentheses close, if it begins with a keyword or has nothing in it, and if no stretch is
empty; each stretch, trimmed, is an operand of the last keyword before it.

These definitions go through a text character by character, the reader piece by piece.  What
ties the two together is that a piece is a cut as a whole or has no cut in it
(`segments_piece`), so that a text can be taken piece by piece here as well
(`piece_induction`).
-/
import Mathlib.Data.List.TakeWhile
import ItemStore.Proofs.Clauses

namespace ItemStore.ClauseText

open Text

/-! ### Cuts and stretches -/

/-- The parentheses open after characters; below zero if more were closed than opened. -/
def nesting (cs : List Char) : Int :=
  cs.count '(' - cs.count ')'

/-- What ends a stretch. -/
inductive Cut
  | comma
  | keyword (k : Keyword)
  deriving DecidableEq

namespace Cut

def text : Cut → List Char
  | comma => [',']
  | keyword k => k.text.toList

def keyword? : Cut → Option Keyword
  | comma => none
  | keyword k => some k

end Cut

/-- A word that follows this character is no keyword. -/
def attaches (c : Char) : Bool :=
  isWordLike c || c == '#' || c == ':' || c == '.'

/-- The cut that begins between the characters before and those after, if one does. -/
def cut? (before after : List Char) : Option Cut :=
  if nesting before = 0 then
    if after.head? = some ',' then some .comma
    else if before.getLast?.any attaches then none
    else (Keyword.ofWord? (.ofList (after.takeWhile isWordLike))).map .keyword
  else none

/-- What stands between a place and the next cut. -/
def stretch (before : List Char) : List Char → List Char
  | [] => []
  | c :: after =>
    if (cut? before (c :: after)).isSome then [] else c :: stretch (before ++ [c]) after

/-- The cuts from a place on, each with the stretch that follows it. -/
def segments (before : List Char) : List Char → List (Cut × List Char)
  | [] => []
  | c :: after =>
    match cut? before (c :: after) with
    | some cut =>
      (cut, stretch (before ++ cut.text) ((c :: after).drop cut.text.length)) ::
        segments (before ++ [c]) after
    | none => segments (before ++ [c]) after

/-- The stretches under a keyword: those for which it is the last keyword before them, given
the one at the start. -/
def under (k : Keyword) (at? : Option Keyword) : List (Cut × List Char) → List (List Char)
  | [] => []
  | (cut, text) :: rest =>
    let at? := cut.keyword?.or at?
    if at? = some k then text :: under k at? rest else under k at? rest

/-- The operands of a keyword: the stretches under it without the blanks around them. -/
def operandsUnder (k : Keyword) (segs : List (Cut × List Char)) : List String :=
  (under k none segs).map fun text => .ofList (trimChars text)

/-- There is something other than blanks. -/
def HasText (cs : List Char) : Prop :=
  ∃ c ∈ cs, isBlank c = false

/-- No parenthesis is closed that was not opened, and none is left open. -/
structure Closes (before after : List Char) : Prop where
  never : ∀ part, part <+: after → 0 ≤ nesting (before ++ part)
  last : nesting (before ++ after) = 0

/-- What is accepted. -/
structure Grammatical (cs : List Char) : Prop where
  closes : Closes [] cs
  /-- There is nothing in the text, or what there is begins with a keyword. -/
  opens : (∀ c ∈ cs, isBlank c = true) ∨
    ∃ k, cut? (cs.takeWhile isBlank) (cs.dropWhile isBlank) = some (.keyword k)
  /-- Every stretch between a cut and the next has something in it. -/
  filled : ∀ s ∈ segments [] cs, HasText s.2

/-! ### Counting parentheses -/

@[simp] theorem nesting_nil : nesting [] = 0 := rfl

theorem nesting_append (cs ds : List Char) : nesting (cs ++ ds) = nesting cs + nesting ds := by
  simp only [nesting, List.count_append]
  omega

theorem nesting_word {w : List Char} (hw : ∀ c ∈ w, isWordLike c = true) : nesting w = 0 := by
  have hopen : '(' ∉ w := fun h => absurd (hw _ h) (by decide)
  have hclose : ')' ∉ w := fun h => absurd (hw _ h) (by decide)
  simp [nesting, List.count_eq_zero_of_not_mem hopen, List.count_eq_zero_of_not_mem hclose]

theorem nesting_singleton (c : Char) :
    nesting [c] = if c = '(' then 1 else if c = ')' then -1 else 0 := by
  by_cases hopen : c = '('
  · subst hopen
    rfl
  · by_cases hclose : c = ')'
    · subst hclose
      rfl
    · simp [nesting, hopen, hclose]

/-! ### Pieces -/

/-- A piece, and what follows it: a character that is no word character, or a word that does
not go on. -/
inductive Piece : List Char → List Char → Prop
  | mark {c : Char} (stop : isWordLike c = false) (rest : List Char) : Piece [c] rest
  | word {w rest : List Char} (some : w ≠ []) (word : ∀ c ∈ w, isWordLike c = true)
      (stop : ∀ c ∈ rest.head?, isWordLike c = false) : Piece w rest

theorem Piece.pieces_eq {p rest : List Char} (h : Piece p rest) :
    pieces (p ++ rest) = p :: pieces rest := by
  cases h with
  | mark stop => exact pieces_cons_of_stop stop rest
  | word some word stop => rw [pieces_append stop, pieces_word some word, List.singleton_append]

/-- Text is taken piece by piece. -/
theorem piece_induction {motive : List Char → Prop} (nil : motive [])
    (piece : ∀ p rest, Piece p rest → motive rest → motive (p ++ rest)) (cs : List Char) :
    motive cs := by
  induction hlength : cs.length using Nat.strongRecOn generalizing cs with
  | _ n ih =>
      cases cs with
      | nil => exact nil
      | cons c cs =>
          by_cases hc : isWordLike c = true
          · have hsplit : (c :: cs).takeWhile isWordLike ++ (c :: cs).dropWhile isWordLike =
                c :: cs := List.takeWhile_append_dropWhile
            have hstop : ∀ d ∈ ((c :: cs).dropWhile isWordLike).head?, isWordLike d = false := by
              intro d hd
              have := List.head?_dropWhile_not isWordLike (c :: cs)
              rwa [hd] at this
            rw [← hsplit]
            refine piece _ _ (.word (by simp [hc]) (fun d hd => List.mem_takeWhile_imp hd) hstop)
              (ih _ ?_ _ rfl)
            rw [List.dropWhile_cons_of_pos hc]
            have := (List.dropWhile_sublist isWordLike (l := cs)).length_le
            rw [List.length_cons] at hlength
            omega
          · refine piece [c] cs (.mark (by simpa using hc) cs) (ih cs.length ?_ cs rfl)
            rw [List.length_cons] at hlength
            omega

/-! ### A piece is a cut, or has none in it -/

theorem ofWord?_eq_some_iff {word : String} {k : Keyword} :
    Keyword.ofWord? word = some k ↔ k.text = word := by
  constructor
  · intro h
    rw [Keyword.ofWord?] at h
    simpa using List.find?_some h
  · rintro rfl
    cases k <;> rfl

section Cuts

variable {before rest p : List Char}

theorem cut?_nil (before : List Char) : cut? before [] = none := by
  have hempty : Keyword.ofWord? (.ofList []) = none := by rfl
  simp [cut?, hempty]

theorem cut?_comma (before rest : List Char) :
    cut? before (',' :: rest) = if nesting before = 0 then some .comma else none := by
  rw [cut?, List.head?_cons, if_pos rfl]

/-- Where no comma stands, only a word can begin a cut. -/
theorem cut?_of_ne_comma {c : Char} (hcomma : c ≠ ',') (before rest : List Char) :
    cut? before (c :: rest) =
      if nesting before = 0 ∧ before.getLast?.any attaches = false then
        (Keyword.ofWord? (.ofList ((c :: rest).takeWhile isWordLike))).map .keyword
      else none := by
  rw [cut?, List.head?_cons]
  by_cases hnesting : nesting before = 0
  · rw [if_pos hnesting, if_neg (by simpa using hcomma)]
    cases hattaches : before.getLast?.any attaches
    · rw [if_neg Bool.false_ne_true, if_pos ⟨hnesting, rfl⟩]
    · rw [if_pos rfl, if_neg (by simp)]
  · rw [if_neg hnesting, if_neg (by simp [hnesting])]

theorem cut?_mark {c : Char} (stop : isWordLike c = false) (hcomma : c ≠ ',')
    (before rest : List Char) : cut? before (c :: rest) = none := by
  have hempty : Keyword.ofWord? (.ofList []) = none := by rfl
  rw [cut?_of_ne_comma hcomma, List.takeWhile_cons_of_neg (by simp [stop]), hempty,
    Option.map_none, ite_self]

theorem ne_comma_of_isWordLike {c : Char} (hc : isWordLike c = true) : c ≠ ',' := by
  rintro rfl
  exact absurd hc (by decide)

/-- Inside a word nothing begins. -/
theorem cut?_inside {c d : Char} (hlast : before.getLast? = some c) (hc : isWordLike c = true)
    (hd : isWordLike d = true) (rest : List Char) : cut? before (d :: rest) = none := by
  rw [cut?_of_ne_comma (ne_comma_of_isWordLike hd), if_neg]
  simp [hlast, attaches, hc]

theorem takeWhile_word {w : List Char} (word : ∀ c ∈ w, isWordLike c = true)
    (stop : ∀ c ∈ rest.head?, isWordLike c = false) :
    (w ++ rest).takeWhile isWordLike = w := by
  rw [List.takeWhile_append_of_pos word]
  cases rest with
  | nil => simp
  | cons d rest => simp [stop d rfl]

/-- A whole word is a cut if it is a keyword and nothing it is attached to stands before it. -/
theorem cut?_word {w : List Char} (some : w ≠ []) (word : ∀ c ∈ w, isWordLike c = true)
    (stop : ∀ c ∈ rest.head?, isWordLike c = false) :
    cut? before (w ++ rest) =
      if nesting before = 0 ∧ before.getLast?.any attaches = false then
        (Keyword.ofWord? (.ofList w)).map .keyword
      else none := by
  have htake := takeWhile_word word stop
  obtain ⟨c, w, rfl⟩ := List.exists_cons_of_ne_nil some
  rw [List.cons_append] at htake ⊢
  rw [cut?_of_ne_comma (ne_comma_of_isWordLike (word c (by simp))), htake]

/-- A piece at which a cut begins is the cut. -/
theorem eq_text_of_cut? {cut : Cut} (hp : Piece p rest)
    (hcut : cut? before (p ++ rest) = some cut) : p = cut.text := by
  cases hp with
  | @mark c stop =>
      by_cases hcomma : c = ','
      · subst hcomma
        rw [List.singleton_append, cut?_comma] at hcut
        split at hcut
        · cases hcut
          rfl
        · cases hcut
      · rw [List.singleton_append, cut?_mark stop hcomma] at hcut
        cases hcut
  | word some word stop =>
      rw [cut?_word some word stop] at hcut
      split at hcut
      · obtain ⟨k, hk, rfl⟩ := Option.map_eq_some_iff.mp hcut
        rw [Cut.text, ofWord?_eq_some_iff.mp hk, String.toList_ofList]
      · cases hcut

theorem stretch_inside {w : List Char} (hw : ∀ c ∈ w, isWordLike c = true) (rest : List Char) :
    ∀ (before : List Char) {c : Char}, before.getLast? = some c → isWordLike c = true →
      stretch before (w ++ rest) = w ++ stretch (before ++ w) rest ∧
        segments before (w ++ rest) = segments (before ++ w) rest := by
  induction w with
  | nil => simp
  | cons d w ih =>
      intro before c hlast hc
      have hd := hw d (by simp)
      have hnone := cut?_inside hlast hc hd (w ++ rest)
      obtain ⟨hstretch, hsegments⟩ := ih (fun e he => hw e (List.mem_cons_of_mem _ he))
        (before ++ [d]) (by simp) hd
      rw [List.cons_append, stretch, segments, hnone, if_neg (by simp), hstretch, hsegments]
      simp

/-- The text up to the next cut, taken piece by piece. -/
theorem stretch_piece (hp : Piece p rest) (before : List Char) :
    stretch before (p ++ rest) =
      if (cut? before (p ++ rest)).isSome then [] else p ++ stretch (before ++ p) rest := by
  cases hp with
  | mark stop => rfl
  | @word w _ some word stop =>
      obtain ⟨c, w, rfl⟩ := List.exists_cons_of_ne_nil some
      obtain ⟨hstretch, -⟩ := stretch_inside (fun d hd => word d (List.mem_cons_of_mem _ hd)) rest
        (before ++ [c]) (by simp) (word c (by simp))
      rw [List.cons_append, stretch, hstretch]
      simp

/-- The cuts from a place on, taken piece by piece. -/
theorem segments_piece (hp : Piece p rest) (before : List Char) :
    segments before (p ++ rest) =
      match cut? before (p ++ rest) with
      | some cut => (cut, stretch (before ++ p) rest) :: segments (before ++ p) rest
      | none => segments (before ++ p) rest := by
  have hinside : segments before (p ++ rest) =
      match cut? before (p ++ rest) with
      | some cut => (cut, stretch (before ++ cut.text) ((p ++ rest).drop cut.text.length)) ::
          segments (before ++ p) rest
      | none => segments (before ++ p) rest := by
    cases hp with
    | mark stop => rfl
    | @word w _ some word stop =>
        obtain ⟨c, w, rfl⟩ := List.exists_cons_of_ne_nil some
        obtain ⟨-, hsegments⟩ := stretch_inside
          (fun d hd => word d (List.mem_cons_of_mem _ hd)) rest (before ++ [c])
          (by simp) (word c (by simp))
        rw [List.append_assoc, List.singleton_append] at hsegments
        rw [List.cons_append, segments, hsegments]
  rw [hinside]
  cases hcut : cut? before (p ++ rest) with
  | none => rfl
  | some cut =>
      have hp := eq_text_of_cut? hp hcut
      simp only [← hp, List.drop_left]

end Cuts

/-! ### Where cuts are -/

/-- The cuts of a text, each at its place. -/
theorem mem_segments_iff (cut : Cut) :
    ∀ after before : List Char, (∃ text, (cut, text) ∈ segments before after) ↔
      ∃ part rest, part ++ rest = after ∧ cut? (before ++ part) rest = some cut := by
  intro after
  induction after with
  | nil =>
      intro before
      constructor
      · rintro ⟨text, htext⟩
        cases htext
      · rintro ⟨part, rest, happend, hcut⟩
        obtain ⟨rfl, rfl⟩ := List.append_eq_nil_iff.mp happend
        rw [cut?_nil] at hcut
        cases hcut
  | cons c after ih =>
      intro before
      -- A cut of the text is at its first character or is a cut of the rest.
      have hsplit : (∃ part rest, part ++ rest = c :: after ∧
          cut? (before ++ part) rest = some cut) ↔
          cut? before (c :: after) = some cut ∨ ∃ part rest, part ++ rest = after ∧
            cut? (before ++ [c] ++ part) rest = some cut := by
        constructor
        · rintro ⟨part, rest, happend, hcut⟩
          cases part with
          | nil =>
              rw [List.nil_append] at happend
              rw [happend, List.append_nil] at hcut
              exact .inl hcut
          | cons d part =>
              obtain ⟨rfl, rfl⟩ := List.cons.inj happend
              exact .inr ⟨part, rest, rfl, by rwa [List.append_assoc]⟩
        · rintro (hcut | ⟨part, rest, rfl, hcut⟩)
          · exact ⟨[], c :: after, rfl, by rwa [List.append_nil]⟩
          · exact ⟨c :: part, rest, rfl, by rwa [List.append_assoc] at hcut⟩
      rw [hsplit, ← ih, segments]
      cases hcut : cut? before (c :: after) with
      | none => simp
      | some cut' =>
          simp only [List.mem_cons, Prod.mk.injEq, Option.some.injEq]
          constructor
          · rintro ⟨text, ⟨rfl, -⟩ | hmem⟩
            · exact .inl rfl
            · exact .inr ⟨text, hmem⟩
          · rintro (rfl | ⟨text, hmem⟩)
            · exact ⟨_, .inl ⟨rfl, rfl⟩⟩
            · exact ⟨text, .inr hmem⟩

/-- A keyword has stretches under it if it is a cut. -/
theorem under_ne_nil_of_mem {k : Keyword} {text : List Char} {segs : List (Cut × List Char)} :
    ∀ {at? : Option Keyword}, (.keyword k, text) ∈ segs → under k at? segs ≠ [] := by
  induction segs with
  | nil =>
      intro at? hmem
      cases hmem
  | cons seg segs ih =>
      intro at? hmem
      rw [under]
      rcases List.mem_cons.mp hmem with rfl | hrest
      · simp [Cut.keyword?]
      · split
        · exact List.cons_ne_nil _ _
        · exact ih hrest

/-- A keyword that has stretches under it was there to begin with or is a cut. -/
theorem mem_of_under_ne_nil {k : Keyword} {segs : List (Cut × List Char)} :
    ∀ {at? : Option Keyword}, under k at? segs ≠ [] →
      at? = some k ∨ ∃ text, (.keyword k, text) ∈ segs := by
  induction segs with
  | nil =>
      intro at? h
      exact absurd rfl h
  | cons seg segs ih =>
      intro at? h
      obtain ⟨cut, text⟩ := seg
      have hat : (cut.keyword?.or at?) = some k →
          at? = some k ∨ ∃ text', (.keyword k, text') ∈ (cut, text) :: segs := by
        intro hat
        cases cut with
        | comma => exact .inl hat
        | keyword k' =>
            cases hat
            exact .inr ⟨text, List.mem_cons_self⟩
      rw [under] at h
      split at h
      · rename_i hunder
        exact hat hunder
      · rename_i hunder
        rcases ih h with hnext | ⟨text', hmem⟩
        · exact hat hnext
        · exact .inr ⟨text', List.mem_cons_of_mem _ hmem⟩

/-- No stretch under a keyword but one of the text. -/
theorem mem_segments_of_mem_under {k : Keyword} {text : List Char}
    {segs : List (Cut × List Char)} :
    ∀ {at? : Option Keyword}, text ∈ under k at? segs → ∃ cut, (cut, text) ∈ segs := by
  induction segs with
  | nil =>
      intro at? hmem
      cases hmem
  | cons seg segs ih =>
      intro at? hmem
      obtain ⟨cut, text'⟩ := seg
      rw [under] at hmem
      split at hmem
      · rcases List.mem_cons.mp hmem with rfl | hrest
        · exact ⟨cut, List.mem_cons_self⟩
        · obtain ⟨cut', hcut⟩ := ih hrest
          exact ⟨cut', List.mem_cons_of_mem _ hcut⟩
      · obtain ⟨cut', hcut⟩ := ih hmem
        exact ⟨cut', List.mem_cons_of_mem _ hcut⟩

/-! ### What comes before the first cut -/

/-- Blanks are no part of a cut. -/
theorem stretch_blanks {blanks : List Char} (hblanks : ∀ c ∈ blanks, isBlank c = true)
    (rest : List Char) :
    ∀ before, stretch before (blanks ++ rest) = blanks ++ stretch (before ++ blanks) rest ∧
      segments before (blanks ++ rest) = segments (before ++ blanks) rest := by
  induction blanks with
  | nil => simp
  | cons c blanks ih =>
      intro before
      have hc := hblanks c (by simp)
      have hnone : cut? before (c :: (blanks ++ rest)) = none := by
        refine cut?_mark (isWordLike_of_isBlank hc) ?_ before _
        rintro rfl
        exact absurd hc (by decide)
      obtain ⟨hstretch, hsegments⟩ := ih (fun d hd => hblanks d (List.mem_cons_of_mem _ hd))
        (before ++ [c])
      rw [List.cons_append, stretch, segments, hnone, if_neg (by simp), hstretch, hsegments]
      simp

/-- Nothing but blanks stands before the first cut and that is a keyword, if it begins with
the first character that is not blank. -/
theorem opens_iff {cs : List Char} :
    ((∀ c ∈ cs, isBlank c = true) ∨
      ∃ k, cut? (cs.takeWhile isBlank) (cs.dropWhile isBlank) = some (.keyword k)) ↔
      (∀ c ∈ stretch [] cs, isBlank c = true) ∧ ∀ seg ∈ (segments [] cs).head?, seg.1 ≠ .comma := by
  have hblanks : ∀ c ∈ cs.takeWhile isBlank, isBlank c = true :=
    fun c hc => List.mem_takeWhile_imp hc
  obtain ⟨hstretch, hsegments⟩ := stretch_blanks hblanks (cs.dropWhile isBlank) []
  rw [List.takeWhile_append_dropWhile, List.nil_append] at hstretch hsegments
  rw [hstretch, hsegments, ← List.dropWhile_eq_nil_iff]
  have hfirst := List.head?_dropWhile_not isBlank cs
  cases hrest : cs.dropWhile isBlank with
  | nil =>
      rw [stretch, segments, List.append_nil]
      simpa using hblanks
  | cons d rest =>
      rw [hrest, List.head?_cons] at hfirst
      have hd : isBlank d = false := by simpa using hfirst
      rw [stretch, segments]
      cases hcut : cut? (cs.takeWhile isBlank) (d :: rest) with
      | none =>
          -- The character is no cut, and no blank either.
          simp only [Option.isSome_none, Bool.false_eq_true, if_false, reduceCtorEq]
          constructor
          · rintro (hnil | ⟨k, hk⟩)
            · cases hnil
            · cases hk
          · rintro ⟨hall, -⟩
            have := hall d (by simp)
            rw [hd] at this
            cases this
      | some cut =>
          cases cut with
          | comma => simp
          | keyword k => simpa using hblanks

/-- Characters are trimmed away altogether if they are blanks. -/
theorem trimChars_ne_nil_iff {cs : List Char} : trimChars cs ≠ [] ↔ HasText cs := by
  rw [trimChars, Ne, List.reverse_eq_nil_iff, List.dropWhile_eq_nil_iff, HasText]
  constructor
  · intro h
    by_contra hblank
    have hall : ∀ c ∈ cs, isBlank c = true := by simpa using hblank
    rw [List.dropWhile_eq_nil_iff.mpr hall] at h
    exact h (by simp)
  · rintro ⟨c, hc, hblank⟩ hall
    have hfirst := List.head?_dropWhile_not isBlank cs
    cases hrest : cs.dropWhile isBlank with
    | nil =>
        rw [List.dropWhile_eq_nil_iff.mp hrest c hc] at hblank
        cases hblank
    | cons d rest =>
        rw [hrest] at hfirst hall
        have hd : isBlank d = true := hall d (by simp)
        rw [List.head?_cons] at hfirst
        exact absurd hd (by simpa using hfirst)

/-! ### Parentheses that close -/

section Parentheses

variable {before rest p : List Char}

theorem Closes.nested {after : List Char} (h : Closes before after) : 0 ≤ nesting before := by
  simpa using h.never [] List.nil_prefix

theorem closes_nil : Closes before [] ↔ nesting before = 0 := by
  constructor
  · intro h
    simpa using h.last
  · intro h
    refine ⟨fun part hpart => ?_, by simpa using h⟩
    rw [List.prefix_nil.mp hpart, List.append_nil]
    exact Int.le_of_eq h.symm

theorem Piece.ne_nil (hp : Piece p rest) : p ≠ [] := by
  cases hp with
  | mark stop => exact List.cons_ne_nil _ _
  | word some => exact some

/-- What a piece does to the parentheses. -/
theorem Piece.nesting_eq (hp : Piece p rest) :
    nesting p = if p = ['('] then 1 else if p = [')'] then -1 else 0 := by
  cases hp with
  | mark stop => simp [nesting_singleton]
  | word some word stop =>
      rw [nesting_word word, if_neg (ne_singleton_of_word word rfl),
        if_neg (ne_singleton_of_word word rfl)]

/-- Inside a piece the parentheses are as before it. -/
theorem Piece.nesting_of_prefix (hp : Piece p rest) {part : List Char} (hpart : part <+: p) :
    part = p ∨ nesting part = 0 := by
  cases hp with
  | mark stop =>
      rcases List.prefix_cons_iff.mp hpart with rfl | ⟨t, rfl, ht⟩
      · exact .inr rfl
      · exact .inl (by rw [List.prefix_nil.mp ht])
  | word some word stop => exact .inr (nesting_word fun c hc => word c (hpart.subset hc))

/-- Parentheses close after a place if they do after the next piece. -/
theorem closes_piece (hp : Piece p rest) (hnested : 0 ≤ nesting before) :
    Closes before (p ++ rest) ↔ Closes (before ++ p) rest := by
  constructor
  · intro h
    refine ⟨fun part hpart => ?_, ?_⟩
    · rw [List.append_assoc]
      exact h.never _ ((List.prefix_append_right_inj p).mpr hpart)
    · rw [List.append_assoc]
      exact h.last
  · intro h
    refine ⟨fun part hpart => ?_, ?_⟩
    · rcases List.prefix_or_prefix_of_prefix hpart (List.prefix_append p rest) with hin | hover
      · rcases hp.nesting_of_prefix hin with rfl | hzero
        · exact h.nested
        · rw [nesting_append, hzero, Int.add_zero]
          exact hnested
      · obtain ⟨part, rfl⟩ := hover
        rw [← List.append_assoc]
        exact h.never part ((List.prefix_append_right_inj p).mp hpart)
    · rw [← List.append_assoc]
      exact h.last

end Parentheses

end ItemStore.ClauseText
