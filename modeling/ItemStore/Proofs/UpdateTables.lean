/-
The tables of a compiled update are exact.

A store refuses a placeholder that is not bound as well as a binding that is not used, so
the two tables have to fit the text of the update to the last placeholder.  What stands in
the text are the placeholders of its operands (`tokens_statement`), and a further operand
adds its own to them and moves none (`tokens_push`).  So the invariant is one about clauses
and tables and never about the text, and it falls into two.  Names may be asked for again:
their table is settled, and binds one placeholder to every field gone through (`Named`).
Values are never shared: every placeholder is new when it is bound, and stands in one
operand only (`Valued`).
-/
import Mathlib.Data.Set.Function
import ItemStore.Proofs.Token
import ItemStore.Proofs.Update

namespace ItemStore

open Placeholder

namespace Clauses

variable {sigil : Char}

/-- The placeholders of a sigil in the operands, keyword by keyword. -/
def tokens (sigil : Char) (c : Clauses) : List String :=
  Keyword.all.flatMap fun k => (c.operands k).flatMap (Text.tokens sigil)

theorem tokens_clauseText (h : sigil ∈ sigils) (k : Keyword) (os : List String) :
    Text.tokens sigil (clauseText (k, os)) = os.flatMap (Text.tokens sigil) := by
  have hkeyword : Text.tokens sigil k.text = [] :=
    tokens_eq_nil_of_sigils h (by cases k <;> decide)
  rw [clauseText, Text.tokens_append (separates_of_sigils h _ (by decide)), hkeyword,
    List.nil_append, Text.tokens_intercalate (separates_of_sigils h _ (by decide))]

/-- **The placeholders in the text of clauses are those of the operands.** -/
theorem tokens_statement (h : sigil ∈ sigils) (c : Clauses) :
    Text.tokens sigil c.statement = c.tokens sigil := by
  have hclauses : ∀ ks : List Keyword,
      ((((ks.map fun k => (k, c.operands k)).filter fun p => !p.2.isEmpty).map clauseText).flatMap
        (Text.tokens sigil)) = ks.flatMap fun k => (c.operands k).flatMap (Text.tokens sigil) := by
    intro ks
    induction ks with
    | nil => rfl
    | cons k ks ih =>
        rw [List.map_cons, List.flatMap_cons, ← ih]
        by_cases hk : c.operands k = []
        · rw [List.filter_cons_of_neg (by simp [hk]), hk, List.flatMap_nil, List.nil_append]
        · rw [List.filter_cons_of_pos (by simp [hk]), List.map_cons, List.flatMap_cons,
            tokens_clauseText h]
  rw [statement, render_eq, Text.tokens_intercalate (separates_of_sigils h _ (by decide)),
    hclauses, tokens]

/-- A further operand adds its placeholders to those there are. -/
theorem tokens_push (c : Clauses) (k : Keyword) (o : String) :
    ((c.push k o).tokens sigil).Perm (c.tokens sigil ++ Text.tokens sigil o) := by
  have hnew : (Keyword.all.flatMap fun k' => if k' = k then Text.tokens sigil o else []) =
      Text.tokens sigil o := by
    cases k <;> simp [Keyword.all]
  have hparts : (c.push k o).tokens sigil = Keyword.all.flatMap fun k' =>
      (c.operands k').flatMap (Text.tokens sigil) ++
        if k' = k then Text.tokens sigil o else [] := by
    rw [tokens]
    congr 1
    funext k'
    rw [operands_push, List.flatMap_append]
    by_cases hk : k' = k
    · simp [hk]
    · simp [hk]
  rw [hparts]
  refine (List.flatMap_append_perm _ _ _).symm.trans ?_
  rw [hnew, tokens]

theorem mem_tokens_push {c : Clauses} {k : Keyword} {o p : String} :
    p ∈ (c.push k o).tokens sigil ↔ p ∈ c.tokens sigil ∨ p ∈ Text.tokens sigil o := by
  rw [(tokens_push c k o).mem_iff, List.mem_append]

end Clauses

namespace UpdateExpression

/-! ### Placeholders of an operand -/

theorem tokens_operand {sigil : Char} (h : sigil ∈ sigils) (k : Keyword) (p q : String) :
    Text.tokens sigil (operand k p q) = Text.tokens sigil p ++ Text.tokens sigil q := by
  rw [operand_eq, Text.tokens_append (separates_of_sigils h _ (by cases k <;> decide))]

theorem tokens_hash_operand (k : Keyword) {p q : String} (hp : Shaped '#' p)
    (hq : Shaped ':' q) : Text.tokens '#' (operand k p q) = [p] := by
  rw [tokens_operand (by decide), Text.tokens_of_shaped rfl hp,
    Text.tokens_of_shaped_ne rfl (by decide) hq, List.append_nil]

theorem tokens_colon_operand (k : Keyword) {p q : String} (hp : Shaped '#' p)
    (hq : Shaped ':' q) : Text.tokens ':' (operand k p q) = [q] := by
  rw [tokens_operand (by decide), Text.tokens_of_shaped_ne rfl (by decide) hp,
    Text.tokens_of_shaped rfl hq, List.nil_append]

/-! ### The invariant -/

variable {c : Clauses} {k : Keyword} {o name : String}

/-- The name placeholders in the operands are those bound, and the names bound are these. -/
structure Named (c : Clauses) (names : Dict String) (done : List String) : Prop where
  settled : Settled names
  keys : ∀ p, p ∈ c.tokens '#' ↔ p ∈ names.keys
  bound : ∀ name, (∃ p, names.find? p = some name) ↔ name ∈ done

/-- The value placeholders in the operands are those bound, and each stands there once. -/
structure Valued (c : Clauses) (values : Dict Attribute) : Prop where
  keys : ∀ q, q ∈ c.tokens ':' ↔ q ∈ values.keys
  once : (c.tokens ':').Nodup

theorem named_empty : Named ∅ ∅ [] where
  settled := settled_empty
  keys _ := Iff.rfl
  bound _ := by simp [EmptyCollection.emptyCollection]

theorem valued_empty : Valued ∅ ∅ where
  keys _ := Iff.rfl
  once := List.nodup_nil

/-- An operand with the placeholder of a name names one field more. -/
theorem Named.push {names : Dict String} {done : List String} (h : Named c names done)
    (ho : Text.tokens '#' o = [forName name names]) :
    Named (c.push k o) (names.insert (forName name names) name) (done ++ [name]) := by
  refine ⟨h.settled.insert_forName name, fun p => ?_, fun name' => ?_⟩
  · rw [Clauses.mem_tokens_push, h.keys, ho, List.mem_singleton, Entries.mem_keys_insert, or_comm]
  · rw [List.mem_append, List.mem_singleton, ← h.bound]
    constructor
    · rintro ⟨p, hp⟩
      rw [Entries.find?_insert] at hp
      split at hp
      · cases hp
        exact Or.inr rfl
      · exact Or.inl ⟨p, hp⟩
    · rintro (⟨p, hp⟩ | rfl)
      · exact ⟨p, find?_insert_forName name hp⟩
      · exact ⟨forName name' names, by rw [Entries.find?_insert, if_pos rfl]⟩

/-- An operand without a value leaves the values as they are. -/
theorem Valued.push_alone {values : Dict Attribute} (h : Valued c values)
    (ho : Text.tokens ':' o = []) : Valued (c.push k o) values := by
  refine ⟨fun q => ?_, ?_⟩
  · rw [Clauses.mem_tokens_push, ho, h.keys]
    simp
  · rw [(Clauses.tokens_push c k o).nodup_iff, ho, List.append_nil]
    exact h.once

/-- An operand with the placeholder of a value has one that no other has. -/
theorem Valued.push {values : Dict Attribute} (h : Valued c values) (a : Attribute)
    (ho : Text.tokens ':' o = [forValue name values.keys]) :
    Valued (c.push k o) (values.insert (forValue name values.keys) a) := by
  refine ⟨fun q => ?_, ?_⟩
  · rw [Clauses.mem_tokens_push, h.keys, ho, List.mem_singleton, Entries.mem_keys_insert, or_comm]
  · rw [(Clauses.tokens_push c k o).nodup_iff, ho, List.nodup_append_comm]
    refine List.nodup_cons.mpr ⟨fun hmem => ?_, h.once⟩
    exact forValue_not_mem name values.keys ((h.keys _).mp hmem)

/-! ### Compiling field after field -/

section Compiling

variable {serializer : Serializer} {schema : Schema} {e e' : UpdateExpression}
  {change : Change} {done : List String}

/-- The fields outside the key. -/
def nonKeys (schema : Schema) (fields : List (String × Change)) : List String :=
  (fields.map (·.1)).filter fun name => !schema.isKey name

/-- **Compiling one field keeps clauses and tables together.** -/
theorem Named.addField (hnamed : Named e.clauses e.names done) (hvalued : Valued e.clauses e.values)
    (hadd : e.addField serializer schema name change = .ok e') :
    Named e'.clauses e'.names (done ++ nonKeys schema [(name, change)]) ∧
      Valued e'.clauses e'.values := by
  have hp := shaped_forName name e.names
  have hq := shaped_forValue name e.values.keys
  have hone : schema.isKey name = false → nonKeys schema [(name, change)] = [name] := by
    intro hkey
    simp [nonKeys, hkey]
  rcases addField_cases hadd with ⟨hkey, rfl⟩ | ⟨hkey, -, k, -, rfl⟩ | ⟨hkey, -, k, v, a, -, -, rfl⟩
  · have hnone : nonKeys schema [(name, change)] = [] := by simp [nonKeys, hkey]
    rw [hnone, List.append_nil]
    exact ⟨hnamed, hvalued⟩
  · rw [hone hkey]
    exact ⟨hnamed.push (Text.tokens_of_shaped rfl hp),
      hvalued.push_alone (Text.tokens_of_shaped_ne rfl (by decide) hp)⟩
  · rw [hone hkey]
    exact ⟨hnamed.push (tokens_hash_operand k hp hq),
      hvalued.push a (tokens_colon_operand k hp hq)⟩

/-- **Compiling keeps clauses and tables together**, through all the fields. -/
theorem Named.addFields (fields : List (String × Change)) :
    ∀ {done : List String} {e e' : UpdateExpression}, Named e.clauses e.names done →
      Valued e.clauses e.values →
      UpdateExpression.addFields serializer schema fields e = .ok e' →
      Named e'.clauses e'.names (done ++ nonKeys schema fields) ∧ Valued e'.clauses e'.values := by
  induction fields with
  | nil =>
      intro done e e' hnamed hvalued hadd
      cases hadd
      exact ⟨by simpa [nonKeys] using hnamed, hvalued⟩
  | cons field fields ih =>
      obtain ⟨name, change⟩ := field
      intro done e e' hnamed hvalued hadd
      rw [UpdateExpression.addFields] at hadd
      obtain ⟨e₁, hfirst, hrest⟩ := bind_eq_ok.mp hadd
      obtain ⟨hnamed₁, hvalued₁⟩ := hnamed.addField hvalued hfirst
      obtain ⟨hnamed', hvalued'⟩ := ih hnamed₁ hvalued₁ hrest
      refine ⟨?_, hvalued'⟩
      rwa [List.append_assoc, nonKeys, nonKeys, ← List.filter_append, ← List.map_append] at hnamed'

end Compiling

/-! ### Exact tables -/

/-- The tables of a compiled update bind what stands in its statement and nothing else; its
name placeholders and the fields outside the key are in one to one correspondence. -/
structure Exact (e : UpdateExpression) (schema : Schema) (u : Update) : Prop where
  names : ∀ p, p ∈ Text.tokens '#' e.statement ↔ p ∈ e.names.keys
  fields : Set.BijOn e.names.find? {p | p ∈ Text.tokens '#' e.statement}
    (some '' {name | name ∈ u.fields.map (·.1) ∧ schema.isKey name = false})
  values : ∀ q, q ∈ Text.tokens ':' e.statement ↔ q ∈ e.values.keys
  once : (Text.tokens ':' e.statement).Nodup
  keyless : ∀ p name, e.names.find? p = some name → schema.isKey name = false

end UpdateExpression

namespace Update

open UpdateExpression

variable {u : Update} {serializer : Serializer} {schema : Schema} {e : UpdateExpression}

/-- **The tables of a compiled update are exact**, whatever its fields are called and however
often they come. -/
theorem compile_exact (h : u.compile serializer schema = .ok e) : e.Exact schema u := by
  obtain ⟨hnamed, hvalued⟩ := named_empty.addFields u.fields valued_empty h
  have hbound : ∀ name, (∃ p, e.names.find? p = some name) ↔
      name ∈ u.fields.map (·.1) ∧ schema.isKey name = false := by
    intro name
    rw [hnamed.bound, List.nil_append, nonKeys, List.mem_filter, Bool.not_eq_true']
  have hnames : ∀ p, p ∈ Text.tokens '#' e.statement ↔ p ∈ e.names.keys := by
    intro p
    rw [statement, Clauses.tokens_statement (by decide), hnamed.keys]
  refine ⟨hnames, ⟨?_, ?_, ?_⟩, fun q => ?_, ?_, fun p name hp => ((hbound name).mp ⟨p, hp⟩).2⟩
  · intro p hp
    obtain ⟨name, hname⟩ := (Entries.mem_keys_iff _).mp ((hnames p).mp hp)
    exact ⟨name, (hbound name).mp ⟨p, hname⟩, hname.symm⟩
  · intro p hp p' hp' heq
    obtain ⟨name, hname⟩ := (Entries.mem_keys_iff _).mp ((hnames p).mp hp)
    have hname' : e.names.find? p' = some name := heq.symm.trans hname
    exact hnamed.settled.injective hname hname'
  · rintro _ ⟨name, hfield, rfl⟩
    obtain ⟨p, hp⟩ := (hbound name).mpr hfield
    exact ⟨p, (hnames p).mpr ((Entries.mem_keys_iff _).mpr ⟨name, hp⟩), hp⟩
  · rw [statement, Clauses.tokens_statement (by decide), hvalued.keys]
  · rw [statement, Clauses.tokens_statement (by decide)]
    exact hvalued.once

/-- Names that clean to one another, a field that comes twice, and fields of the key. -/
theorem compile_exact_repeated :
    let u : Update := { fields := [
      ("id", .remove), ("a-", .set (.ofInt 1)), ("a", .set (.ofInt 2)), ("a_2", .remove),
      ("a", .increment (.ofInt 3)), ("ts", .set .null), ("a", .remove)] }
    let schema := (Schema.ofHashKey "id" .string).withRangeKey "ts" .number
    ∃ e, u.compile Encoding.standard schema = .ok e ∧
      e.statement = "SET #a = :a, #a_2 = :a_2 ADD #a_2 :a_3 REMOVE #a_2_2, #a_2" ∧
      e.Exact schema u :=
  ⟨_, rfl, by decide, compile_exact (show Update.compile _ Encoding.standard _ = _ from rfl)⟩

end Update

end ItemStore
