/-
What the text of an expression is made of.

The names of fields and attributes come from callers and may be any text, and yet nothing of them
but word characters reaches an expression: what stands between the marks of a statement is a word of
a fixed vocabulary, a path of name placeholders, or a value placeholder (`Text.DrawnFrom`).  A
placeholder is its sigil and at least one ASCII letter, digit or underscore (`Placeholder.Worded`),
because names without any are refused.

Texts of that kind make such a text again when they are joined by one.  So for an update it is
enough to look at the operand of one field, and for joined conditions at the fragment of one
condition.
-/
import ItemStore.Proofs.Unambiguous
import ItemStore.Proofs.Update

namespace ItemStore

namespace Placeholder

/-! ### Placeholders -/

/-- A sigil, at least one word character, and nothing else. -/
def Worded (sigil : Char) (p : String) : Prop :=
  ∃ c word, p.toList = sigil :: c :: word ∧ ∀ d ∈ c :: word, Text.isWord d = true

theorem Worded.shaped {sigil : Char} {p : String} (h : Worded sigil p) : Shaped sigil p := by
  obtain ⟨c, word, hp, hword⟩ := h
  exact ⟨c :: word, hp, hword⟩

theorem worded_candidate {sigil : Char} {base : String} (h : Worded sigil base) (n : Nat) :
    Worded sigil (candidate base n) := by
  obtain ⟨c, word, hbase, hword⟩ := h
  refine ⟨c, word ++ suffix n, by rw [toList_candidate, hbase]; rfl, ?_⟩
  intro d hd
  rw [← List.cons_append] at hd
  rcases List.mem_append.mp hd with hw | hs
  · exact hword d hw
  · exact isWord_of_mem_suffix hs

/-- Cleaning leaves something of a text that has a word character. -/
theorem worded_of_clean {sigil : Char} {s p : String}
    (hp : p.toList = sigil :: (Text.clean s).toList) (h : ∃ c ∈ s.toList, Text.isWord c = true) : Worded sigil p := by
  have hword : ∀ d ∈ (Text.clean s).toList, Text.isWord d = true := by
    intro d hd
    rw [toList_clean] at hd
    exact (List.mem_filter.mp hd).2
  cases hclean : (Text.clean s).toList with
  | nil =>
      obtain ⟨c, hc, hcw⟩ := h
      rw [toList_clean, List.filter_eq_nil_iff] at hclean
      exact absurd hcw (hclean c hc)
  | cons c word =>
      rw [hclean] at hp hword
      exact ⟨c, word, hp, hword⟩

theorem exists_isWord_of_clean {s : String} (h : (Text.clean s).isEmpty = false) :
    ∃ c ∈ s.toList, Text.isWord c = true := by
  by_contra hnone
  push Not at hnone
  rw [isEmpty_clean_iff.mpr (by simpa using hnone)] at h
  cases h

theorem worded_forName {name : String} (h : ∃ c ∈ name.toList, Text.isWord c = true)
    (names : Dict String) : Worded '#' (forName name names) := by
  obtain ⟨m, hm, -, -⟩ := forName_spec name names
  rw [hm]
  exact worded_candidate (worded_of_clean (by rw [ofName, String.toList_append]; rfl) h) m

theorem worded_forValue {path : String} (h : ∃ c ∈ path.toList, Text.isWord c = true)
    (taken : List String) : Worded ':' (forValue path taken) := by
  obtain ⟨m, hm, -, -⟩ := forValue_spec path taken
  rw [hm]
  refine worded_candidate (worded_of_clean (by rw [ofPath, String.toList_append]; rfl) ?_) m
  -- A word character is no point, and stays as it is.
  obtain ⟨c, hc, hword⟩ := h
  have hpoint : c ≠ '.' := by
    rintro rfl
    cases hword
  rw [String.toList_ofList]
  exact ⟨c, List.mem_map.mpr ⟨c, hc, if_neg hpoint⟩, hword⟩

theorem worded_forValues {path : String} (h : ∃ c ∈ path.toList, Text.isWord c = true)
    {α : Type} (vs : List α) :
    ∀ (taken : List String), ∀ p ∈ (forValues path vs taken).map (·.1), Worded ':' p := by
  induction vs with
  | nil => intro taken p hp; simp [forValues] at hp
  | cons v vs ih =>
      intro taken p hp
      rw [forValues, List.map_cons] at hp
      rcases List.mem_cons.mp hp with rfl | hlater
      · exact worded_forValue h taken
      · exact ih _ p hlater

theorem worded_assign {segments : List String}
    (h : ∀ s ∈ segments, ∃ c ∈ s.toList, Text.isWord c = true) :
    ∀ (names : Dict String), ∀ p ∈ (PathPlaceholders.assign segments names).map (·.1),
      Worded '#' p := by
  induction segments with
  | nil => intro names p hp; simp [PathPlaceholders.assign] at hp
  | cons segment segments ih =>
      intro names p hp
      rw [PathPlaceholders.assign, List.map_cons] at hp
      rcases List.mem_cons.mp hp with rfl | hlater
      · exact worded_forName (h segment (List.mem_cons_self ..)) names
      · exact ih (fun s hs => h s (List.mem_cons_of_mem _ hs)) _ p hlater

/-- A path has the characters of its segments. -/
theorem exists_isWord_of_segments {path : String}
    (h : ∀ s ∈ pathSegments path, ∃ c ∈ s.toList, Text.isWord c = true) :
    ∃ c ∈ path.toList, Text.isWord c = true := by
  obtain ⟨segment, rest, hsegments⟩ := List.exists_cons_of_ne_nil (pathSegments_ne_nil path)
  obtain ⟨c, hc, hword⟩ := h segment (by rw [hsegments]; exact List.mem_cons_self ..)
  refine ⟨c, ?_, hword⟩
  rw [← intercalate_pathSegments path, hsegments]
  cases rest with
  | nil => rwa [String.intercalate_singleton]
  | cons next rest =>
      rw [String.intercalate_cons_cons, String.toList_append, String.toList_append,
        List.append_assoc]
      exact List.mem_append_left _ hc

end Placeholder

namespace Text

open Placeholder

/-! ### Texts drawn from a vocabulary -/

/-- What may stand between the marks of a text: a word of a vocabulary, a path of name
placeholders, or a value placeholder. -/
inductive Admissible (vocabulary : List String) : String → Prop
  | word {s : String} (mem : s ∈ vocabulary) : Admissible vocabulary s
  | path {ps : List String} (ne : ps ≠ []) (worded : ∀ p ∈ ps, Worded '#' p) :
      Admissible vocabulary (".".intercalate ps)
  | value {s : String} (worded : Worded ':' s) : Admissible vocabulary s

/-- A text of nothing but blanks, commas, parentheses, and what is admissible between them. -/
def DrawnFrom (vocabulary : List String) (text : String) : Prop :=
  ∀ s ∈ lexemes text, Admissible vocabulary s

variable {vocabulary : List String} {sep : String}

theorem DrawnFrom.append (h : Divides sep.toList) {s t : String} (hs : DrawnFrom vocabulary s)
    (hsep : DrawnFrom vocabulary sep) (ht : DrawnFrom vocabulary t) :
    DrawnFrom vocabulary (s ++ sep ++ t) := by
  intro lexeme hmem
  rw [lexemes_append h, List.mem_append, List.mem_append] at hmem
  rcases hmem with h | h | h
  · exact hs lexeme h
  · exact hsep lexeme h
  · exact ht lexeme h

/-- Texts drawn from a vocabulary may be joined by one that is. -/
theorem DrawnFrom.intercalate (h : Divides sep.toList) (hsep : DrawnFrom vocabulary sep)
    {parts : List String} (hparts : ∀ s ∈ parts, DrawnFrom vocabulary s) :
    DrawnFrom vocabulary (sep.intercalate parts) := by
  rcases eq_or_ne parts [] with rfl | hne
  · intro lexeme hmem
    cases hmem
  · intro lexeme hmem
    have hlater : lexeme ∈ lexemes sep ++ lexemes (sep.intercalate parts) :=
      List.mem_append_right _ hmem
    rw [lexemes_intercalate h hne, List.mem_flatMap] at hlater
    obtain ⟨s, hs, hlexeme⟩ := hlater
    rcases List.mem_append.mp hlexeme with hin | hin
    · exact hsep lexeme hin
    · exact hparts s hs lexeme hin

theorem drawn_of_words {s : String} (h : ∀ lexeme ∈ lexemes s, lexeme ∈ vocabulary) :
    DrawnFrom vocabulary s :=
  fun lexeme hmem => .word (h lexeme hmem)

theorem lexemes_path {ps : List String} (hne : ps ≠ []) (h : ∀ p ∈ ps, Worded '#' p) :
    lexemes (".".intercalate ps) = [".".intercalate ps] :=
  lexemes_of_path (by rfl) hne fun p hp => (h p hp).shaped

theorem drawn_path {ps : List String} (hne : ps ≠ []) (h : ∀ p ∈ ps, Worded '#' p) :
    DrawnFrom vocabulary (".".intercalate ps) := by
  intro lexeme hmem
  rw [lexemes_path hne h] at hmem
  rw [List.mem_singleton.mp hmem]
  exact .path hne h

theorem drawn_name {p : String} (h : Worded '#' p) : DrawnFrom vocabulary p := by
  have hpath : DrawnFrom vocabulary (".".intercalate [p]) :=
    drawn_path (List.cons_ne_nil p []) (by simpa using h)
  rwa [String.intercalate_singleton] at hpath

theorem drawn_value {p : String} (h : Worded ':' p) : DrawnFrom vocabulary p := by
  intro lexeme hmem
  rw [lexemes_of_shaped (by rfl) h.shaped] at hmem
  rw [List.mem_singleton.mp hmem]
  exact .value h

end Text

/-! ### Updates -/

namespace UpdateExpression

open Placeholder Text

/-- The words of update expressions. -/
def vocabulary : List String :=
  "=" :: Keyword.all.map Keyword.text

theorem drawn_operand (k : Keyword) {p q : String} (hp : Worded '#' p) (hq : Worded ':' q) :
    DrawnFrom vocabulary (operand k p q) := by
  rw [operand_eq]
  exact (drawn_name hp).append (divides_of_ends (by cases k <;> decide))
    (drawn_of_words (by cases k <;> decide)) (drawn_value hq)

/-- Clauses of operands that are drawn from the vocabulary make a text that is. -/
theorem drawn_statement {c : Clauses} (h : ∀ k, ∀ o ∈ c.operands k, DrawnFrom vocabulary o) :
    DrawnFrom vocabulary c.statement := by
  have hblank : DrawnFrom vocabulary " " := drawn_of_words (by decide)
  have hcomma : DrawnFrom vocabulary ", " := drawn_of_words (by decide)
  rw [Clauses.statement, Clauses.render_eq]
  refine DrawnFrom.intercalate (divides_of_ends (by decide)) hblank fun s hs => ?_
  obtain ⟨clause, hclause, rfl⟩ := List.mem_map.mp hs
  obtain ⟨k, -, rfl⟩ := List.mem_map.mp (List.mem_filter.mp hclause).1
  have hkeyword : DrawnFrom vocabulary k.text := drawn_of_words (by cases k <;> decide)
  exact hkeyword.append (divides_of_ends (by decide)) hblank
    (DrawnFrom.intercalate (divides_of_ends (by decide)) hcomma (h k))

theorem drawn_push {c : Clauses} {k : Keyword} {o : String}
    (h : ∀ k, ∀ o ∈ c.operands k, DrawnFrom vocabulary o) (ho : DrawnFrom vocabulary o) :
    ∀ k', ∀ o' ∈ (c.push k o).operands k', DrawnFrom vocabulary o' := by
  intro k' o' hmem
  rw [Clauses.operands_push, List.mem_append] at hmem
  rcases hmem with hold | hnew
  · exact h k' o' hold
  · split at hnew
    · rwa [List.mem_singleton.mp hnew]
    · cases hnew

variable {serializer : Serializer} {schema : Schema} {e e' : UpdateExpression} {name : String}
  {c : Change}

/-- Compiling a field adds an operand that is drawn from the vocabulary. -/
theorem drawn_of_addField (h : ∀ k, ∀ o ∈ e.clauses.operands k, DrawnFrom vocabulary o)
    (hadd : e.addField serializer schema name c = .ok e') :
    ∀ k, ∀ o ∈ e'.clauses.operands k, DrawnFrom vocabulary o := by
  rcases addField_cases hadd with ⟨-, rfl⟩ | ⟨-, hclean, k, -, rfl⟩ |
    ⟨-, hclean, k, v, a, -, -, rfl⟩
  · exact h
  · exact drawn_push h (drawn_name (worded_forName (exists_isWord_of_clean hclean) _))
  · have hword := exists_isWord_of_clean hclean
    exact drawn_push h (drawn_operand k (worded_forName hword _) (worded_forValue hword _))

theorem drawn_of_addFields (fields : List (String × Change)) :
    ∀ {e e' : UpdateExpression}, (∀ k, ∀ o ∈ e.clauses.operands k, DrawnFrom vocabulary o) →
      addFields serializer schema fields e = .ok e' →
        ∀ k, ∀ o ∈ e'.clauses.operands k, DrawnFrom vocabulary o := by
  induction fields with
  | nil =>
      intro e e' h hadd
      cases hadd
      exact h
  | cons field fields ih =>
      obtain ⟨name, c⟩ := field
      intro e e' h hadd
      rw [addFields] at hadd
      obtain ⟨e₁, hfirst, hrest⟩ := bind_eq_ok.mp hadd
      exact ih (drawn_of_addField h hfirst) hrest

end UpdateExpression

/-- **The text of a compiled update is drawn from the words of updates.** -/
theorem Update.drawn_statement {u : Update} {serializer : Serializer} {schema : Schema}
    {e : UpdateExpression} (h : u.compile serializer schema = .ok e) :
    Text.DrawnFrom UpdateExpression.vocabulary e.statement :=
  UpdateExpression.drawn_statement <| UpdateExpression.drawn_of_addFields u.fields
    (fun k o ho => by
      rw [show (∅ : UpdateExpression).clauses = ∅ from rfl, Clauses.operands_empty] at ho
      cases ho) h

/-! ### Conditions -/

namespace Operator

/-- The words of conditions. -/
def vocabulary : List String :=
  "AND" :: all.flatMap fun op => Text.lexemes op.text

example : vocabulary = ["AND", "=", "<>", "<", "<=", ">", ">=", "BETWEEN", "IN",
    "attribute_exists", "attribute_not_exists", "attribute_type", "begins_with", "contains",
    "NOT", "contains", "size"] := by
  decide +kernel

theorem mem_vocabulary {op : Operator} {s : String} (h : s ∈ Text.lexemes op.text) :
    s ∈ vocabulary :=
  List.mem_cons_of_mem _ (List.mem_flatMap.mpr ⟨op, op.mem_all, h⟩)

/-- Between the operands of a range, and nowhere else, stands a word. -/
theorem mem_spread {op : Operator} {ps : List String} {s : String} (h : s ∈ op.spread ps) :
    s = "AND" ∨ s ∈ ps := by
  have hrange : ∀ {qs : List String}, s ∈ qs.intersperse "AND" → s = "AND" ∨ s ∈ qs := by
    intro qs
    induction qs with
    | nil => simp
    | cons q qs ih =>
        cases qs with
        | nil => exact Or.inr
        | cons q' qs =>
            rw [List.intersperse_cons_cons, List.mem_cons, List.mem_cons, List.mem_cons]
            rintro (rfl | rfl | hlater)
            · exact Or.inr (Or.inl rfl)
            · exact Or.inl rfl
            · exact (ih hlater).imp_right Or.inr
  cases op with
  | between => exact hrange h
  | compare c => exact Or.inr h
  | oneOf => exact Or.inr h
  | call f => exact Or.inr h

/-- An operator between its operands is one word. -/
theorem text_mem_lexemes_text :
    ∀ op : Operator, op.isFunction = false → op.text ∈ Text.lexemes op.text := by
  decide +kernel

end Operator

open Placeholder PathPlaceholders

/-- The text of a condition is drawn from the words of conditions. -/
theorem Test.drawn_fragment {path : String}
    (h : ∀ s ∈ pathSegments path, ∃ c ∈ s.toList, Text.isWord c = true) (t : Test)
    (taken : List String) (names : Dict String) :
    Text.DrawnFrom Operator.vocabulary (t.fragment path taken names).statement := by
  have hnames := worded_assign h names
  have hvalues := worded_forValues (exists_isWord_of_segments h) t.operands taken
  have hne : (assign (pathSegments path) names).map (·.1) ≠ [] := by
    intro hnil
    have hsegments := map_snd_assign (pathSegments path) names
    rw [List.map_eq_nil_iff.mp hnil] at hsegments
    exact pathSegments_ne_nil path hsegments.symm
  have hlength : ((forValues path t.operands taken).map (·.1)).length = t.operands.length := by
    rw [List.length_map, ← congrArg List.length (map_snd_forValues path t.operands taken),
      List.length_map]
  have hvalue : ∀ q ∈ (forValues path t.operands taken).map (·.1), Text.lexemes q = [q] :=
    fun q hq => Text.lexemes_of_shaped (by rfl) (hvalues q hq).shaped
  intro s hs
  rw [fragment, lexemes_statement t (Text.lexemes_path hne hnames) hvalue hlength,
    Operator.lexemes, List.mem_append, List.mem_cons] at hs
  rcases hs with hlead | rfl | htail
  · rw [Operator.lead] at hlead
    split at hlead
    · exact .word (Operator.mem_vocabulary hlead)
    · cases hlead
  · exact .path hne hnames
  · rw [Operator.tail] at htail
    split at htail
    · exact .value (hvalues s htail)
    · rename_i hfunction
      rcases List.mem_cons.mp htail with rfl | hspread
      · exact .word (Operator.mem_vocabulary
          (t.operator.text_mem_lexemes_text (by simpa using hfunction)))
      · rcases Operator.mem_spread hspread with rfl | hvalue
        · exact .word (List.mem_cons_self ..)
        · exact .value (hvalues s hvalue)

namespace Builder

variable {b b' : Builder} {path : String} {op : Operator} {value value2 : Option Value}

/-- A condition adds a fragment that is drawn from the words of conditions. -/
theorem drawn_of_condition (h : ∀ s ∈ b.fragments, Text.DrawnFrom Operator.vocabulary s)
    (hadd : b.condition path op value value2 = .ok b') :
    ∀ s ∈ b'.fragments, Text.DrawnFrom Operator.vocabulary s := by
  rw [condition_eq] at hadd
  obtain ⟨t, -, hadd⟩ := bind_eq_ok.mp hadd
  split at hadd
  · cases hadd
  · rename_i hwords
    cases hadd
    have hsegments : ∀ s ∈ pathSegments path, ∃ c ∈ s.toList, Text.isWord c = true := by
      intro s hs
      refine exists_isWord_of_clean ?_
      rw [← Bool.not_eq_true]
      exact fun hempty => hwords (List.any_eq_true.mpr ⟨s, hs, hempty⟩)
    intro s hs
    rw [fragments_push, List.mem_append] at hs
    rcases hs with hold | hnew
    · exact h s hold
    · rw [List.mem_singleton.mp hnew]
      exact t.drawn_fragment hsegments _ _

/-- Every fragment of a builder is drawn from the words of conditions. -/
theorem Reachable.drawn (h : Reachable b) :
    ∀ s ∈ b.fragments, Text.DrawnFrom Operator.vocabulary s := by
  induction h with
  | empty => exact fun s hs => nomatch hs
  | reserve _ _ ih => exact ih
  | condition _ added ih => exact drawn_of_condition ih added

theorem Reachable.addAll (cs : List Condition) :
    ∀ {b b' : Builder}, Reachable b → b.addAll cs = .ok b' → Reachable b' := by
  induction cs with
  | nil =>
      intro b b' h hadds
      cases hadds
      exact h
  | cons c cs ih =>
      intro b b' h hadds
      rw [Builder.addAll, List.foldlM_cons] at hadds
      obtain ⟨b₁, hadd, hrest⟩ := bind_eq_ok.mp hadds
      exact ih (h.condition hadd) hrest

/-- **The text of joined conditions is drawn from the words of conditions.** -/
theorem Reachable.drawn_build {e : Expression} (h : Reachable b) (hbuild : b.build = some e) :
    Text.DrawnFrom Operator.vocabulary e.statement := by
  rw [build] at hbuild
  split at hbuild
  · cases hbuild
  · cases hbuild
    exact Text.DrawnFrom.intercalate (Text.divides_of_ends (by decide))
      (Text.drawn_of_words (by decide +kernel)) h.drawn

end Builder

end ItemStore
