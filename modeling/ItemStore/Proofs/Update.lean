/-
Compiling an update loses nothing of it.

What an update asks for is said here without any reference to placeholders: `Update.under`
lists the fields that come under an action, in order, each with the value that goes there.
What a compiled update says is found the way its receiver finds it, by reading the text
into clauses and looking up the words of each operand in the two tables (`reading`).  The
two agree (`compile_reading`).

There are two halves to it.  Compiling goes through the fields in order, and what it keeps
is that every operand `States` one of the fields gone through: its placeholders have the
shape of placeholders, and the tables say what they stand for.  A binding is never changed
again, so this stays true while more fields follow.  And operands of that shape are
operands wherever they stand: every word in them is glued to a sigil, so that none can be a
keyword, whatever the field is called.
-/
import ItemStore.Expression.Update
import ItemStore.Proofs.Clauses
import ItemStore.Proofs.Placeholder

namespace ItemStore

/-! ### What an update asks for -/

/-- What a change asks for under an action: to go there with a value or without one, or
nothing at all. -/
def Change.under : Keyword → Change → Option (Option Value)
  | .set, .set v => if v = .null ∨ v = .text "" then none else some (some v)
  | .add, .increment v => some (some v)
  | .delete, .decrement v => some (some v)
  | .remove, .set v => if v = .null ∨ v = .text "" then some none else none
  | .remove, .remove => some none
  | _, _ => none

/-- What a change of a field comes to under an action; nothing for a field of the key. -/
def Change.listed (schema : Schema) (k : Keyword) (field : String × Change) :
    Option (String × Option Value) :=
  if schema.isKey field.1 then none else (field.2.under k).map fun v => (field.1, v)

/-- The fields outside the key that come under an action, in order. -/
def Update.under (u : Update) (schema : Schema) (k : Keyword) : List (String × Option Value) :=
  u.fields.filterMap (Change.listed schema k)

/-- A field with the encoding of its value under its declared type. -/
def Serializer.encodeField (serializer : Serializer) (schema : Schema) :
    String × Option Value → Except Error (String × Option Attribute)
  | (name, none) => .ok (name, none)
  | (name, some v) => do return (name, some (← serializer.encode (schema.datatype? name) v))

namespace UpdateExpression

/-- What an operand of an action says, looked up in the tables. -/
def reading (e : UpdateExpression) (k : Keyword) (operand : String) :
    Option (String × Option Attribute) :=
  match k, operand.toList.splitOn ' ' with
  | .set, [p, ['='], q] | .add, [p, q] | .delete, [p, q] => do
    return (← e.names.find? (.ofList p), some (← e.values.find? (.ofList q)))
  | .remove, [p] => do return (← e.names.find? (.ofList p), none)
  | _, _ => none

end UpdateExpression

/-- A change comes under its action, and under no other. -/
theorem Change.under_eq (c : Change) (k : Keyword) :
    c.under k = if k = c.action.1 then some c.action.2 else none := by
  cases c with
  | set v =>
      have hnull : v.isNull = true ↔ v = .null := by
        unfold Value.isNull
        split <;> simp_all [Value.null]
      have hempty : v.isEmptyText = true ↔ v = .text "" := by
        unfold Value.isEmptyText
        split <;> simp_all [Value.text]
      by_cases hremove : v = .null ∨ v = .text ""
      · have haction : (v.isNull || v.isEmptyText) = true := by
          rwa [Bool.or_eq_true, hnull, hempty]
        cases k <;> simp [under, action, haction, hremove]
      · have haction : ¬(v.isNull || v.isEmptyText) = true := by
          rwa [Bool.or_eq_true, hnull, hempty]
        cases k <;> simp [under, action, haction, hremove]
  | increment v => cases k <;> simp [under, action]
  | decrement v => cases k <;> simp [under, action]
  | remove => cases k <;> simp [under, action]

/-- A change goes without a value exactly under REMOVE. -/
theorem Change.action_eq_remove_iff (c : Change) :
    c.action.1 = .remove ↔ c.action.2 = none := by
  cases c <;> simp [Change.action]
  split <;> simp

namespace Placeholder

open Text ClauseText

/-! ### Placeholders in an operand -/

/-- A placeholder ends no operand. -/
theorem plain_shaped {sigil : Char} (hsigil : Ordinary sigil) (hglue : State.glues sigil = true)
    {p : String} (hp : Shaped sigil p) {cs : List Char}
    (hstop : ∀ c ∈ cs.head?, isWordLike c = false)
    (h : ∀ previous, Plain 0 previous (pieces cs)) (previous : Option Char) :
    Plain 0 previous (pieces (p.toList ++ cs)) := by
  obtain ⟨word, hlist, hword⟩ := hp
  rw [hlist, List.cons_append]
  exact plain_cons hsigil previous (plain_word hglue hword hstop h)

theorem plain_shaped_alone {sigil : Char} (hsigil : Ordinary sigil)
    (hglue : State.glues sigil = true) {p : String} (hp : Shaped sigil p)
    (previous : Option Char) : Plain 0 previous (pieces p.toList) := by
  have hend : ∀ previous, Plain 0 previous (pieces []) := fun _ => rfl
  have hplain := plain_shaped hsigil hglue hp (by simp) hend previous
  rwa [List.append_nil] at hplain

theorem isBlank_of_mem_shaped {sigil : Char} (hsigil : isBlank sigil = false) {p : String}
    (hp : Shaped sigil p) : ∀ c ∈ p.toList, isBlank c = false := by
  obtain ⟨word, hlist, hword⟩ := hp
  intro c hc
  rw [hlist] at hc
  rcases List.mem_cons.mp hc with he | hw
  · rw [he, hsigil]
  · rw [← Bool.not_eq_true]
    intro hblank
    have := isWordLike_of_isWord (hword c hw)
    rw [isWordLike_of_isBlank hblank] at this
    cases this

end Placeholder

namespace UpdateExpression

open Text ClauseText Placeholder

/-! ### Operands that state a field -/

/-- The operand of an action states a field: its placeholders have their shape, and the
tables give the name and the value for them. -/
inductive States (e : UpdateExpression) : Keyword → String → String × Option Attribute → Prop
  | alone {p name : String} (shaped : Shaped '#' p) (bound : e.names.find? p = some name) :
      States e .remove p (name, none)
  | valued {k : Keyword} {p name q : String} {a : Attribute} (takes : k ≠ .remove)
      (shaped : Shaped '#' p) (bound : e.names.find? p = some name)
      (shaped' : Shaped ':' q) (bound' : e.values.find? q = some a) :
      States e k (operand k p q) (name, some a)

variable {e e' : UpdateExpression} {k : Keyword} {text : String}
  {field : String × Option Attribute}

/-- Where bindings are kept, an operand states what it stated. -/
theorem States.mono (h : e.States k text field)
    (hnames : ∀ p name, e.names.find? p = some name → e'.names.find? p = some name)
    (hvalues : ∀ q a, e.values.find? q = some a → e'.values.find? q = some a) :
    e'.States k text field := by
  cases h with
  | alone shaped bound => exact .alone shaped (hnames _ _ bound)
  | valued takes shaped bound shaped' bound' =>
      exact .valued takes shaped (hnames _ _ bound) shaped' (hvalues _ _ bound')

/-- What stands between the two placeholders of an operand. -/
def separator (k : Keyword) : String :=
  if k = .set then " = " else " "

/-- The keyword decides on the separator of an operand, and on nothing else in it. -/
theorem operand_eq (k : Keyword) (p q : String) : operand k p q = p ++ separator k ++ q := by
  rw [operand, separator]
  split <;> rfl

theorem toList_separator (k : Keyword) :
    (separator k).toList = if k = .set then [' ', '=', ' '] else [' '] := by
  cases k <;> decide

theorem toList_operand (k : Keyword) (p q : String) :
    (operand k p q).toList = p.toList ++ (separator k).toList ++ q.toList := by
  rw [operand_eq, String.toList_append, String.toList_append]

/-- **An operand that states a field is one wherever it stands.** -/
theorem States.isOperand (h : e.States k text field) : IsOperand text := by
  have hhash : Ordinary '#' := by decide
  have hcolon : Ordinary ':' := by decide
  have hblank : Ordinary ' ' := by decide
  have hequals : Ordinary '=' := by decide
  cases h with
  | @alone p name shaped bound =>
      have hplain := plain_shaped_alone hhash rfl shaped none
      have hlast := isBlank_of_mem_shaped (by rfl) shaped
      obtain ⟨word, hlist, -⟩ := shaped
      exact isOperand_of_ends hlist (List.nil_append _).symm (by simp [hlist]) (by rfl) hlast hplain
  | @valued _ p _ q _ takes shaped bound shaped' bound' =>
      have hvalue := plain_shaped_alone hcolon rfl shaped'
      have hrest : ∀ previous, Plain 0 previous
          (pieces ((separator k).toList ++ q.toList)) := by
        intro previous
        rw [toList_separator]
        split
        · exact plain_cons hblank _ (plain_cons hequals _ (plain_cons hblank _ (hvalue _)))
        · exact plain_cons hblank _ (hvalue _)
      have hstop : ∀ c ∈ ((separator k).toList ++ q.toList).head?, isWordLike c = false := by
        rw [toList_separator]
        split <;> simp <;> rfl
      have hplain := plain_shaped hhash rfl shaped hstop hrest none
      have hlast := isBlank_of_mem_shaped (by rfl) shaped'
      obtain ⟨word, hlist, -⟩ := shaped
      obtain ⟨word', hlist', -⟩ := shaped'
      rw [← List.append_assoc, ← toList_operand] at hplain
      have hfirst : (operand k p q).toList =
          '#' :: (word ++ (separator k).toList ++ q.toList) := by
        rw [toList_operand, hlist, List.cons_append, List.cons_append]
      exact isOperand_of_ends hfirst (toList_operand k p q) (by simp [hlist']) (by rfl) hlast
        hplain

theorem splitOn_operand (k : Keyword) {p q : String} (hp : ' ' ∉ p.toList)
    (hq : ' ' ∉ q.toList) : (operand k p q).toList.splitOn ' ' =
      if k = .set then [p.toList, ['='], q.toList] else [p.toList, q.toList] := by
  rw [toList_operand, toList_separator]
  split
  · have hwords : ([' '].intercalate [p.toList, ['='], q.toList]).splitOn ' ' =
        [p.toList, ['='], q.toList] :=
      List.splitOn_intercalate ' ' (by simp [hp, hq]) (by simp)
    simpa [List.intercalate_cons_cons] using hwords
  · have hwords : ([' '].intercalate [p.toList, q.toList]).splitOn ' ' =
        [p.toList, q.toList] :=
      List.splitOn_intercalate ' ' (by simp [hp, hq]) (by simp)
    simpa [List.intercalate_cons_cons] using hwords

/-- **An operand that states a field is read as that field.** -/
theorem States.reading_eq (h : e.States k text field) : e.reading k text = some field := by
  have hblank : ∀ {sigil p}, isBlank sigil = false → Shaped sigil p → ' ' ∉ p.toList := by
    intro sigil p hsigil hp hmem
    have := isBlank_of_mem_shaped hsigil hp ' ' hmem
    cases this
  cases h with
  | alone shaped bound =>
      have hwords : ([' '].intercalate [text.toList]).splitOn ' ' = [text.toList] :=
        List.splitOn_intercalate ' ' (by simpa using hblank (by rfl) shaped) (by simp)
      rw [List.intercalate_singleton] at hwords
      unfold reading
      rw [hwords]
      simp [bound]
  | valued takes shaped bound shaped' bound' =>
      have hwords := splitOn_operand k (hblank (by rfl) shaped) (hblank (by rfl) shaped')
      unfold reading
      rw [hwords]
      cases k with
      | set => simp [bound, bound']
      | add => simp [bound, bound']
      | delete => simp [bound, bound']
      | remove => exact absurd rfl takes

/-! ### Compiling field after field -/

/-- What compiling one field does: nothing for a field of the key; otherwise it pushes one
operand and binds its placeholders. -/
theorem addField_cases {serializer : Serializer} {schema : Schema} {name : String} {c : Change}
    (h : e.addField serializer schema name c = .ok e') :
    (schema.isKey name = true ∧ e' = e) ∨
    (schema.isKey name = false ∧ (Text.clean name).isEmpty = false ∧
      ∃ k, c.action = (k, none) ∧ e' = { e with
        clauses := e.clauses.push k (forName name e.names)
        names := e.names.insert (forName name e.names) name }) ∨
    (schema.isKey name = false ∧ (Text.clean name).isEmpty = false ∧
      ∃ k v a, c.action = (k, some v) ∧ serializer.encode (schema.datatype? name) v = .ok a ∧
        e' = {
          clauses := e.clauses.push k
            (operand k (forName name e.names) (forValue name e.values.keys))
          names := e.names.insert (forName name e.names) name
          values := e.values.insert (forValue name e.values.keys) a }) := by
  unfold addField at h
  by_cases hkey : schema.isKey name = true
  · rw [if_pos hkey] at h
    cases h
    exact Or.inl ⟨hkey, rfl⟩
  · rw [if_neg hkey] at h
    rw [Bool.not_eq_true] at hkey
    by_cases hclean : (Text.clean name).isEmpty = true
    · rw [if_pos hclean] at h
      cases h
    · rw [if_neg hclean] at h
      rw [Bool.not_eq_true] at hclean
      cases haction : c.action with
      | mk k v? =>
          rw [haction] at h
          cases v? with
          | none =>
              cases h
              exact Or.inr (Or.inl ⟨hkey, hclean, k, rfl, rfl⟩)
          | some v =>
              obtain ⟨a, hencode, he⟩ := bind_eq_ok.mp h
              cases he
              exact Or.inr (Or.inr ⟨hkey, hclean, k, v, a, rfl, hencode, rfl⟩)

section Compiling

variable {serializer : Serializer} {schema : Schema} {done : List (String × Change)}
  {name : String} {c : Change}

/-- A field outside the key gets one operand that states it, and no binding is changed. -/
theorem addField_states (h : e.addField serializer schema name c = .ok e') :
    (schema.isKey name = true ∧ e' = e) ∨
    (schema.isKey name = false ∧ ∃ text field,
      serializer.encodeField schema (name, c.action.2) = .ok field ∧
      e'.clauses = e.clauses.push c.action.1 text ∧ e'.States c.action.1 text field ∧
      (∀ p n, e.names.find? p = some n → e'.names.find? p = some n) ∧
      (∀ q a, e.values.find? q = some a → e'.values.find? q = some a)) := by
  have hname : (e.names.insert (forName name e.names) name).find? (forName name e.names) =
      some name := by
    rw [Entries.find?_insert, if_pos rfl]
  rcases addField_cases h with hkey | ⟨hkey, -, k, haction, rfl⟩ |
    ⟨hkey, -, k, v, a, haction, hencode, rfl⟩
  · exact Or.inl hkey
  · have hk : k = .remove := by
      have := (c.action_eq_remove_iff).mpr (by rw [haction])
      rwa [haction] at this
    rw [haction, hk]
    exact Or.inr ⟨hkey, _, _, rfl, rfl, .alone (shaped_forName name e.names) hname,
      fun p n => find?_insert_forName name, fun q a hq => hq⟩
  · have hk : k ≠ .remove := by
      intro hremove
      have := (c.action_eq_remove_iff).mp (by rw [haction, hremove])
      rw [haction] at this
      cases this
    rw [haction]
    refine Or.inr ⟨hkey, _, (name, some a), ?_, rfl, .valued hk (shaped_forName name e.names) hname
      (shaped_forValue name e.values.keys) ?_, fun p n => find?_insert_forName name,
      fun q b => find?_insert_forValue name a⟩
    · rw [Serializer.encodeField, hencode]
      rfl
    · rw [Entries.find?_insert, if_pos rfl]

/-- Under every action the operands state, one by one, the encodings of the fields that have
been gone through and come under it. -/
def Compiled (serializer : Serializer) (schema : Schema) (fields : List (String × Change))
    (e : UpdateExpression) : Prop :=
  ∀ k, ∃ encoded,
    List.Forall₂ (fun f f' => serializer.encodeField schema f = .ok f')
      (fields.filterMap (Change.listed schema k)) encoded ∧
    List.Forall₂ (e.States k) (e.clauses.operands k) encoded

theorem compiled_nil : Compiled serializer schema [] ∅ := by
  intro k
  refine ⟨[], .nil, ?_⟩
  rw [show (∅ : UpdateExpression).clauses = ∅ from rfl, Clauses.operands_empty]
  exact .nil

/-- Compiling one more field goes through one more. -/
theorem Compiled.addField (h : Compiled serializer schema done e)
    (hadd : e.addField serializer schema name c = .ok e') :
    Compiled serializer schema (done ++ [(name, c)]) e' := by
  intro k
  obtain ⟨encoded, hencoded, hstates⟩ := h k
  rw [List.filterMap_append]
  rcases addField_states hadd with ⟨hkey, rfl⟩ |
    ⟨hkey, text, field, hencode, hclauses, hstated, hnames, hvalues⟩
  · refine ⟨encoded, ?_, hstates⟩
    simpa [Change.listed, hkey] using hencoded
  · have hkept := hstates.imp fun _ _ hs => hs.mono hnames hvalues
    rw [hclauses, Clauses.operands_push]
    by_cases hk : k = c.action.1
    · subst hk
      refine ⟨encoded ++ [field], List.rel_append hencoded ?_, List.rel_append hkept ?_⟩
      · simpa [Change.listed, hkey, Change.under_eq] using hencode
      · simpa using hstated
    · refine ⟨encoded, ?_, ?_⟩
      · simpa [Change.listed, hkey, Change.under_eq, hk] using hencoded
      · simpa [hk] using hkept

/-- **What compiling keeps**, through all the fields. -/
theorem Compiled.addFields (rest : List (String × Change)) :
    ∀ {done : List (String × Change)} {e e' : UpdateExpression},
      Compiled serializer schema done e →
      UpdateExpression.addFields serializer schema rest e = .ok e' →
      Compiled serializer schema (done ++ rest) e' := by
  induction rest with
  | nil =>
      intro done e e' h hadd
      cases hadd
      rwa [List.append_nil]
  | cons f rest ih =>
      obtain ⟨name, c⟩ := f
      intro done e e' h hadd
      rw [UpdateExpression.addFields] at hadd
      obtain ⟨e₁, hfirst, hrest⟩ := bind_eq_ok.mp hadd
      have := ih (h.addField hfirst) hrest
      rwa [List.append_assoc, List.singleton_append] at this

end Compiling

end UpdateExpression

namespace Update

open UpdateExpression

variable {u : Update} {serializer : Serializer} {schema : Schema} {e : UpdateExpression}

theorem compiled (h : u.compile serializer schema = .ok e) :
    Compiled serializer schema u.fields e :=
  compiled_nil.addFields u.fields h

/-- The text of a compiled update is read as its clauses. -/
theorem read_statement_compile (h : u.compile serializer schema = .ok e) :
    Clauses.read e.statement = .ok e.clauses := by
  refine Clauses.read_statement fun k => ?_
  obtain ⟨encoded, -, hstates⟩ := compiled h k
  have hboth := hstates.imp fun _ _ hs => And.intro hs.isOperand hs
  exact ((List.forall₂_and_left _ _).mp hboth).1

/-- A field outside the key comes under some action. -/
theorem under_eq_nil_iff (u : Update) (schema : Schema) :
    (∀ k, u.under schema k = []) ↔ ∀ field ∈ u.fields, schema.isKey field.1 = true := by
  constructor
  · intro hnil field hmem
    have hlisted := List.filterMap_eq_nil_iff.mp (hnil field.2.action.1) field hmem
    rw [Change.listed, Change.under_eq, if_pos rfl] at hlisted
    by_contra hkey
    simp [hkey] at hlisted
  · intro hkeys k
    refine List.filterMap_eq_nil_iff.mpr fun field hmem => ?_
    rw [Change.listed, if_pos (hkeys field hmem)]

theorem clauses_eq_empty_iff (h : u.compile serializer schema = .ok e) :
    e.clauses = ∅ ↔ ∀ field ∈ u.fields, schema.isKey field.1 = true := by
  have hlength : ∀ k, (e.clauses.operands k).length = (u.under schema k).length := by
    intro k
    obtain ⟨encoded, hencoded, hstates⟩ := compiled h k
    rw [hstates.length_eq, ← hencoded.length_eq, under]
  rw [← under_eq_nil_iff]
  constructor
  · intro hempty k
    rw [← List.length_eq_zero_iff, ← hlength, hempty, Clauses.operands_empty, List.length_nil]
  · intro hnil
    refine Clauses.ext_operands fun k => ?_
    rw [Clauses.operands_empty, ← List.length_eq_zero_iff, hlength, hnil, List.length_nil]

/-- **Compiling loses nothing of an update**: the text of what it is compiled to is read
without fault, and under every action the operands say, in order, what the update asks for
there; the text is empty if all fields are of the key, and only then. -/
theorem compile_reading (h : u.compile serializer schema = .ok e) :
    (∃ parsed, Clauses.read e.statement = .ok parsed ∧
      ∀ k, ∃ fields, (u.under schema k).mapM (serializer.encodeField schema) = .ok fields ∧
        (parsed.operands k).map (e.reading k) = fields.map some) ∧
    (e.statement = "" ↔ ∀ field ∈ u.fields, schema.isKey field.1 = true) := by
  have hread := read_statement_compile h
  refine ⟨⟨e.clauses, hread, fun k => ?_⟩, ?_⟩
  · obtain ⟨encoded, hencoded, hstates⟩ := compiled h k
    refine ⟨encoded, mapM_eq_ok_iff.mpr hencoded, ?_⟩
    rw [← List.forall₂_eq_eq_eq, List.forall₂_map_left_iff, List.forall₂_map_right_iff]
    exact hstates.imp fun _ _ hs => hs.reading_eq
  · rw [← clauses_eq_empty_iff h]
    constructor
    · intro hempty
      -- The empty text is read as no clauses, and what was compiled is what is read.
      have hnil : Clauses.read "" = .ok ∅ := rfl
      rw [hempty, hnil] at hread
      exact (Except.ok.inj hread).symm
    · intro hempty
      rw [statement, hempty]
      rfl

/-- An update whose names clean to one another and to a keyword. -/
theorem compile_reading_sample :
    let u : Update := { fields := [
      ("id", .set (.text "k")), ("SET", .set (.text "x")), ("a-b", .increment (.ofInt 3)),
      ("ab", .set .null), ("ab_2", .remove), ("a.b", .decrement (.leaf (.textSet ["y"])))] }
    let schema := Schema.ofHashKey "id" .string
    ∃ e, u.compile Encoding.standard schema = .ok e ∧
      e.statement = "SET #SET = :SET ADD #ab :ab REMOVE #ab_2, #ab_2_2 DELETE #ab_3 :a_b" ∧
      (∃ parsed, Clauses.read e.statement = .ok parsed ∧
        ∀ k, ∃ fields, (u.under schema k).mapM (Encoding.standard.encodeField schema) = .ok fields ∧
          (parsed.operands k).map (e.reading k) = fields.map some) ∧
      (e.statement = "" ↔ ∀ field ∈ u.fields, schema.isKey field.1 = true) :=
  ⟨_, rfl, by decide, compile_reading rfl⟩

end Update

end ItemStore
