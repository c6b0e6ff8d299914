/-
The lexemes of a statement.

Blanks, commas and parentheses divide a statement into lexemes, and a condition can be read
from these alone: the marks themselves say nothing that the lexemes do not.  No placeholder
has a mark in it, and neither has a path of placeholders, so each is one lexeme
(`lexemes_eq_self`).

A mark belongs to no lexeme and no lexeme reaches across it.  So the lexemes of texts with a
mark between them are those of the texts, one after the other (`lexemes_append`), and of a
list of texts that are joined they are those of its members, each with the lexemes of what
joins them before it (`lexemes_intercalate`).
-/
import ItemStore.Proofs.Token

namespace ItemStore.Text

/-- A character that stands between lexemes. -/
def isMark (c : Char) : Bool :=
  c == ' ' || c == ',' || c == '(' || c == ')'

/-- The runs of characters between marks. -/
def lexemeChars (cs : List Char) : List (List Char) :=
  (cs.splitOnP isMark).filter fun lexeme => !lexeme.isEmpty

/-- The lexemes of a text, in order. -/
def lexemes (s : String) : List String :=
  (lexemeChars s.toList).map .ofList

/-! ### Lexemes of parts -/

/-- **No lexeme reaches across a mark.** -/
theorem lexemeChars_append_cons {m : Char} (hm : isMark m = true) (cs ds : List Char) :
    lexemeChars (cs ++ m :: ds) = lexemeChars cs ++ lexemeChars ds := by
  rw [lexemeChars, List.splitOnP_append_cons cs ds hm, List.filter_append]
  rfl

/-- What divides a text: it begins with a mark and ends with one. -/
def Divides (sep : List Char) : Prop :=
  (∃ m cs, isMark m = true ∧ sep = m :: cs) ∧ ∃ m cs, isMark m = true ∧ sep = cs ++ [m]

theorem lexemeChars_append {sep : List Char} (h : Divides sep) (cs ds : List Char) :
    lexemeChars (cs ++ (sep ++ ds)) = lexemeChars cs ++ (lexemeChars sep ++ lexemeChars ds) := by
  obtain ⟨⟨m, rest, hm, hfirst⟩, m', front, hm', hlast⟩ := h
  have hleft : lexemeChars (cs ++ (sep ++ ds)) = lexemeChars cs ++ lexemeChars (sep ++ ds) := by
    have hself := lexemeChars_append_cons hm [] (rest ++ ds)
    rw [hfirst, List.cons_append, lexemeChars_append_cons hm]
    exact congrArg _ hself.symm
  have hright : lexemeChars (sep ++ ds) = lexemeChars sep ++ lexemeChars ds := by
    have hself := lexemeChars_append_cons hm' front []
    rw [hlast, List.append_assoc, List.singleton_append, lexemeChars_append_cons hm', hself]
    exact congrArg (· ++ lexemeChars ds) (List.append_nil _).symm
  rw [hleft, hright]

/-- A text that is seen to begin and to end with a mark divides. -/
theorem divides_of_ends {sep : String} (h : sep.toList.head?.any isMark = true ∧
    sep.toList.getLast?.any isMark = true) : Divides sep.toList := by
  obtain ⟨hfirst, hlast⟩ := h
  obtain ⟨m, hm, hmark⟩ := (Option.any_eq_true ..).mp hfirst
  obtain ⟨m', hm', hmark'⟩ := (Option.any_eq_true ..).mp hlast
  obtain ⟨rest, hrest⟩ := List.head?_eq_some_iff.mp hm
  obtain ⟨front, hfront⟩ := List.getLast?_eq_some_iff.mp hm'
  exact ⟨⟨m, rest, hmark, hrest⟩, m', front, hmark', hfront⟩

variable {sep : String}

theorem lexemes_append (h : Divides sep.toList) (s t : String) :
    lexemes (s ++ sep ++ t) = lexemes s ++ (lexemes sep ++ lexemes t) := by
  rw [lexemes, String.toList_append, String.toList_append, List.append_assoc,
    lexemeChars_append h, List.map_append, List.map_append]
  rfl

/-- **The lexemes of texts that are joined**: put once more before them, what joins them
stands before each. -/
theorem lexemes_intercalate (h : Divides sep.toList) {parts : List String} (hne : parts ≠ []) :
    lexemes sep ++ lexemes (sep.intercalate parts) =
      parts.flatMap fun s => lexemes sep ++ lexemes s := by
  induction parts with
  | nil => exact absurd rfl hne
  | cons s parts ih =>
      cases parts with
      | nil => simp
      | cons t parts =>
          rw [String.intercalate_cons_cons, lexemes_append h, ih (List.cons_ne_nil _ _),
            ← List.append_assoc]
          rfl

/-- Texts that are their one lexeme are found again where nothing but marks joins them. -/
theorem lexemes_intercalate_self (h : Divides sep.toList) (hsep : lexemes sep = [])
    {parts : List String} (hparts : ∀ s ∈ parts, lexemes s = [s]) :
    lexemes (sep.intercalate parts) = parts := by
  rcases eq_or_ne parts [] with rfl | hne
  · rfl
  · have hjoin := lexemes_intercalate h hne
    simp only [hsep, List.nil_append] at hjoin
    rw [hjoin, List.flatMap_congr hparts]
    exact List.flatMap_singleton' parts

/-! ### Lexemes of placeholders -/

/-- A text without marks is its one lexeme. -/
theorem lexemes_eq_self {s : String} (hne : s ≠ "") (h : ∀ c ∈ s.toList, isMark c = false) :
    lexemes s = [s] := by
  have hlist : s.toList ≠ [] := by simpa using hne
  rw [lexemes, lexemeChars, List.splitOnP_eq_singleton h]
  simp [hlist]

theorem isMark_of_isWord {c : Char} (h : isWord c = true) : isMark c = false := by
  by_contra hmark
  have hcases : ((c = ' ' ∨ c = ',') ∨ c = '(') ∨ c = ')' := by
    rw [Bool.not_eq_false] at hmark
    simpa only [isMark, Bool.or_eq_true, beq_iff_eq] using hmark
  rcases hcases with ((rfl | rfl) | rfl) | rfl <;> cases h

variable {sigil : Char}

theorem isMark_of_mem_shaped (hsigil : isMark sigil = false) {p : String}
    (h : Placeholder.Shaped sigil p) : ∀ c ∈ p.toList, isMark c = false := by
  obtain ⟨word, hp, hword⟩ := h
  intro c hc
  rw [hp] at hc
  rcases List.mem_cons.mp hc with rfl | hmem
  · exact hsigil
  · exact isMark_of_isWord (hword c hmem)

/-- The text begins with this character. -/
def Begins (c : Char) (s : String) : Prop :=
  s.toList.head? = some c

instance (c : Char) (s : String) : Decidable (Begins c s) :=
  inferInstanceAs (Decidable (_ = _))

theorem Begins.ne_empty {c : Char} {s : String} (h : Begins c s) : s ≠ "" := by
  rintro rfl
  cases h

theorem begins_of_shaped {p : String} (h : Placeholder.Shaped sigil p) : Begins sigil p := by
  obtain ⟨word, hp, -⟩ := h
  rw [Begins, hp]
  rfl

/-- A placeholder is one lexeme. -/
theorem lexemes_of_shaped (hsigil : isMark sigil = false) {p : String}
    (h : Placeholder.Shaped sigil p) : lexemes p = [p] :=
  lexemes_eq_self (begins_of_shaped h).ne_empty (isMark_of_mem_shaped hsigil h)

theorem isMark_of_mem_intercalate (hsep : (sep.toList.all fun c => !isMark c) = true)
    {parts : List String} (h : ∀ s ∈ parts, ∀ c ∈ s.toList, isMark c = false) :
    ∀ c ∈ (sep.intercalate parts).toList, isMark c = false := by
  induction parts with
  | nil => intro c hc; cases hc
  | cons s parts ih =>
      cases parts with
      | nil =>
          rw [String.intercalate_singleton]
          exact h s (by simp)
      | cons t parts =>
          intro c hc
          rw [String.intercalate_cons_cons, String.toList_append, String.toList_append,
            List.append_assoc, List.mem_append, List.mem_append] at hc
          rcases hc with hfirst | hmiddle | hlast
          · exact h s (by simp) c hfirst
          · simpa using List.all_eq_true.mp hsep c hmiddle
          · exact ih (fun r hr => h r (List.mem_cons_of_mem _ hr)) c hlast

theorem begins_intercalate {ps : List String} (hne : ps ≠ []) (h : ∀ p ∈ ps, Begins sigil p) :
    Begins sigil (sep.intercalate ps) := by
  obtain ⟨p, rest, rfl⟩ := List.exists_cons_of_ne_nil hne
  have hp : p.toList.head? = some sigil := h p (by simp)
  cases rest with
  | nil =>
      rw [String.intercalate_singleton]
      exact hp
  | cons q rest =>
      rw [Begins, String.intercalate_cons_cons, String.toList_append, String.toList_append,
        List.append_assoc, List.head?_append, hp]
      rfl

/-- A path of placeholders is one lexeme. -/
theorem lexemes_of_path (hsigil : isMark sigil = false) {ps : List String} (hne : ps ≠ [])
    (h : ∀ p ∈ ps, Placeholder.Shaped sigil p) :
    lexemes (".".intercalate ps) = [".".intercalate ps] := by
  have hbegins : Begins sigil (".".intercalate ps) :=
    begins_intercalate hne fun p hp => begins_of_shaped (h p hp)
  exact lexemes_eq_self hbegins.ne_empty
    (isMark_of_mem_intercalate (by decide) fun p hp => isMark_of_mem_shaped hsigil (h p hp))

end ItemStore.Text
