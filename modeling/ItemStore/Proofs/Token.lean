/-
The placeholders that stand in a text.

A token of a sigil is the sigil and the longest run of word characters after it, wherever
the sigil stands.  That is how a reader of a statement finds its placeholders, and it knows
nothing of how the statement was put together.

Two texts put side by side have the tokens of both, unless the last token of the first runs
on into the second; a blank, a comma or a parenthesis between them stops it.  Everything
that statements are joined with begins with such a character, so the tokens of a statement
are those of its parts (`tokens_intercalate`).
-/
import Mathlib.Data.List.TakeWhile
import ItemStore.Proofs.Placeholder

namespace ItemStore.Text

/-- The tokens of a sigil: the sigil and the longest run of word characters after it. -/
def tokenChars (sigil : Char) : List Char → List (List Char)
  | [] => []
  | c :: cs =>
    if c = sigil then (c :: cs.takeWhile isWord) :: tokenChars sigil cs else tokenChars sigil cs

/-- The tokens of a sigil in a text, in order. -/
def tokens (sigil : Char) (s : String) : List String :=
  (tokenChars sigil s.toList).map .ofList

variable {sigil : Char}

/-! ### Tokens of parts -/

theorem tokenChars_of_not_mem {cs : List Char} (h : sigil ∉ cs) : tokenChars sigil cs = [] := by
  induction cs with
  | nil => rfl
  | cons c cs ih =>
      rw [List.mem_cons, not_or] at h
      rw [tokenChars, if_neg (Ne.symm h.1), ih h.2]

theorem takeWhile_append_stop {c : Char} (hc : isWord c = false) (cs ds : List Char) :
    (cs ++ c :: ds).takeWhile isWord = cs.takeWhile isWord := by
  induction cs with
  | nil => simp [hc]
  | cons b cs ih => rw [List.cons_append, List.takeWhile_cons, List.takeWhile_cons, ih]

/-- A character that is no word character stops the last token of what stands before it. -/
theorem tokenChars_append {c : Char} (hc : isWord c = false) (cs ds : List Char) :
    tokenChars sigil (cs ++ c :: ds) = tokenChars sigil cs ++ tokenChars sigil (c :: ds) := by
  induction cs with
  | nil => rfl
  | cons b cs ih =>
      rw [List.cons_append, tokenChars, tokenChars, ih, takeWhile_append_stop hc]
      by_cases hb : b = sigil
      · rw [if_pos hb, if_pos hb, List.cons_append]
      · rw [if_neg hb, if_neg hb]

theorem tokenChars_append_of_not_mem {cs : List Char} (h : sigil ∉ cs) (ds : List Char) :
    tokenChars sigil (cs ++ ds) = tokenChars sigil ds := by
  induction cs with
  | nil => rfl
  | cons c cs ih =>
      rw [List.mem_cons, not_or] at h
      rw [List.cons_append, tokenChars, if_neg (Ne.symm h.1), ih h.2]

/-- What separates parts of a text: it has no sigil, and no token runs on into it. -/
def Separates (sigil : Char) (sep : List Char) : Prop :=
  ∃ c cs, sep = c :: cs ∧ isWord c = false ∧ sigil ∉ sep

theorem tokenChars_append_separated {sep : List Char} (h : Separates sigil sep)
    (cs ds : List Char) :
    tokenChars sigil (cs ++ (sep ++ ds)) = tokenChars sigil cs ++ tokenChars sigil ds := by
  obtain ⟨c, rest, rfl, hc, hnot⟩ := h
  rw [List.cons_append, tokenChars_append hc, ← List.cons_append,
    tokenChars_append_of_not_mem hnot]

theorem tokenChars_intercalate {sep : List Char} (h : Separates sigil sep)
    (parts : List (List Char)) :
    tokenChars sigil (sep.intercalate parts) = parts.flatMap (tokenChars sigil) := by
  induction parts with
  | nil => rfl
  | cons p parts ih =>
      cases parts with
      | nil => simp
      | cons q parts =>
          rw [List.intercalate_cons_cons, List.append_assoc, tokenChars_append_separated h, ih]
          rfl

theorem tokens_append {sep : String} (h : Separates sigil sep.toList) (s t : String) :
    tokens sigil (s ++ sep ++ t) = tokens sigil s ++ tokens sigil t := by
  rw [tokens, String.toList_append, String.toList_append, List.append_assoc,
    tokenChars_append_separated h, List.map_append]
  rfl

/-- The tokens of parts that are joined are the tokens of the parts. -/
theorem tokens_intercalate {sep : String} (h : Separates sigil sep.toList)
    (parts : List String) :
    tokens sigil (sep.intercalate parts) = parts.flatMap (tokens sigil) := by
  rw [tokens, String.toList_intercalate, tokenChars_intercalate h, List.map_flatMap,
    List.flatMap_map]
  rfl

/-! ### Tokens of placeholders -/

theorem tokenChars_shaped {word : List Char} (hword : ∀ c ∈ word, isWord c = true)
    (hsigil : isWord sigil = false) : tokenChars sigil (sigil :: word) = [sigil :: word] := by
  have hnot : sigil ∉ word := fun hmem => by
    rw [hword sigil hmem] at hsigil
    cases hsigil
  rw [tokenChars, if_pos rfl, tokenChars_of_not_mem hnot,
    List.takeWhile_eq_self_iff.mpr hword]

/-- A placeholder is the one token of its sigil. -/
theorem tokens_of_shaped (hsigil : isWord sigil = false) {p : String}
    (h : Placeholder.Shaped sigil p) : tokens sigil p = [p] := by
  obtain ⟨word, hp, hword⟩ := h
  rw [tokens, hp, tokenChars_shaped hword hsigil, List.map_singleton, ← hp, String.ofList_toList]

/-- A placeholder has no token of another sigil. -/
theorem tokens_of_shaped_ne (hsigil : isWord sigil = false) {other : Char} (hne : sigil ≠ other)
    {p : String} (h : Placeholder.Shaped other p) : tokens sigil p = [] := by
  obtain ⟨word, hp, hword⟩ := h
  have hnot : sigil ∉ other :: word := by
    intro hmem
    rcases List.mem_cons.mp hmem with he | hw
    · exact hne he
    · rw [hword sigil hw] at hsigil
      cases hsigil
  rw [tokens, hp, tokenChars_of_not_mem hnot]
  rfl

theorem flatMap_tokens_of_shaped (hsigil : isWord sigil = false) {ps : List String}
    (h : ∀ p ∈ ps, Placeholder.Shaped sigil p) : ps.flatMap (tokens sigil) = ps := by
  induction ps with
  | nil => rfl
  | cons p ps ih =>
      rw [List.flatMap_cons, tokens_of_shaped hsigil (h p (by simp)),
        ih fun q hq => h q (List.mem_cons_of_mem _ hq), List.singleton_append]

theorem flatMap_tokens_of_shaped_ne (hsigil : isWord sigil = false) {other : Char}
    (hne : sigil ≠ other) {ps : List String} (h : ∀ p ∈ ps, Placeholder.Shaped other p) :
    ps.flatMap (tokens sigil) = [] :=
  List.flatMap_eq_nil_iff.mpr fun p hp => tokens_of_shaped_ne hsigil hne (h p hp)

end ItemStore.Text

namespace ItemStore

/-! ### Texts between placeholders -/

/-- The characters that placeholders begin with. -/
def sigils : List Char := ['#', ':']

variable {sigil : Char}

theorem not_mem_of_sigils (h : sigil ∈ sigils) {s : String}
    (hs : (s.toList.all fun c => !sigils.contains c) = true) : sigil ∉ s.toList := by
  intro hmem
  have := List.all_eq_true.mp hs sigil hmem
  simp [h] at this

/-- A text without sigils has no placeholders in it. -/
theorem tokens_eq_nil_of_sigils (h : sigil ∈ sigils) {s : String}
    (hs : (s.toList.all fun c => !sigils.contains c) = true) : Text.tokens sigil s = [] := by
  rw [Text.tokens, Text.tokenChars_of_not_mem (not_mem_of_sigils h hs)]
  rfl

/-- A text without sigils that begins with no word character separates placeholders. -/
theorem separates_of_sigils (h : sigil ∈ sigils) (sep : String)
    (hsep : sep.toList.head?.any (fun c => !Text.isWord c) = true ∧
      (sep.toList.all fun c => !sigils.contains c) = true) :
    Text.Separates sigil sep.toList := by
  obtain ⟨hhead, hnot⟩ := hsep
  have hmem := not_mem_of_sigils h hnot
  cases hlist : sep.toList with
  | nil =>
      rw [hlist] at hhead
      cases hhead
  | cons c cs =>
      rw [hlist] at hhead hmem
      exact ⟨c, cs, rfl, by simpa using hhead, hmem⟩

end ItemStore
