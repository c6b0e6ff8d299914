/-
Values never reach the text of an expression.

What an update shows without its values is its form: the names of its fields and the action each
comes under.  The form of a condition is its path and operator, which operands it has, how many
candidates a choice has, and which way the existence of an attribute is asked.  Whoever knows the
forms knows the text, the names, and the placeholders of the values: two runs of the compiler on
inputs of one form differ only in what value placeholders stand for.

The runs go side by side.  At each step they have the same text and the same names, and value
tables with the same keys (`UpdateExpression.Alike`, `Builder.Alike`); what is minted next depends
on nothing else, so the step keeps it.  For conditions this takes one thing more: operands that are
accepted are turned into a test, and the form says which operator it asks with and how many
operands it has (`Condition.shape_of_test`).
-/
import ItemStore.Proofs.Vocabulary

namespace ItemStore

/-! ### Updates -/

/-- What an update shows without its values: the names of its fields, and the action that each
comes under. -/
def Update.form (u : Update) : List (String × Keyword) :=
  u.fields.map fun field => (field.1, field.2.action.1)

namespace UpdateExpression

/-- What a compiled update shows without its values. -/
def face (e : UpdateExpression) : String × Dict String × List String :=
  (e.statement, e.names, e.values.keys)

/-- Compiled updates that differ in values alone. -/
structure Alike (e e' : UpdateExpression) : Prop where
  clauses : e.clauses = e'.clauses
  names : e.names = e'.names
  values : e.values.keys = e'.values.keys

theorem Alike.face_eq {e e' : UpdateExpression} (h : Alike e e') : e.face = e'.face := by
  rw [face, face, statement, statement, h.clauses, h.names, h.values]

variable {serializer serializer' : Serializer} {schema : Schema}
  {e e' r r' : UpdateExpression}

/-- Changes under one action have a value both or neither. -/
theorem action_eq_none_congr {c c' : Change} (h : c.action.1 = c'.action.1) :
    c.action.2 = none ↔ c'.action.2 = none := by
  rw [← c.action_eq_remove_iff, ← c'.action_eq_remove_iff, h]

/-- **One field more does not tell alike updates apart**, whatever its value. -/
theorem Alike.addField (h : Alike e e') {name : String} {c c' : Change}
    (haction : c.action.1 = c'.action.1) (hadd : e.addField serializer schema name c = .ok r)
    (hadd' : e'.addField serializer' schema name c' = .ok r') : Alike r r' := by
  have hvalue := action_eq_none_congr haction
  -- Both fields are of the key or neither, and both have a value or neither.
  rcases addField_cases hadd with ⟨hkey, rfl⟩ | ⟨hkey, -, k, hk, rfl⟩ |
    ⟨hkey, -, k, v, a, hk, -, rfl⟩
  · rcases addField_cases hadd' with ⟨-, rfl⟩ | ⟨hkey', -⟩ | ⟨hkey', -⟩
    · exact h
    · cases hkey.symm.trans hkey'
    · cases hkey.symm.trans hkey'
  · rcases addField_cases hadd' with ⟨hkey', -⟩ | ⟨-, -, k', hk', rfl⟩ |
      ⟨-, -, k', v', a', hk', -⟩
    · cases hkey.symm.trans hkey'
    · rw [hk, hk'] at haction
      cases haction
      exact ⟨by rw [h.clauses, h.names], by rw [h.names], h.values⟩
    · rw [hk, hk'] at hvalue
      cases hvalue.mp rfl
  · rcases addField_cases hadd' with ⟨hkey', -⟩ | ⟨-, -, k', hk', -⟩ |
      ⟨-, -, k', v', a', hk', -, rfl⟩
    · cases hkey.symm.trans hkey'
    · rw [hk, hk'] at hvalue
      cases hvalue.mpr rfl
    · rw [hk, hk'] at haction
      cases haction
      refine ⟨by rw [h.clauses, h.names, h.values], by rw [h.names], ?_⟩
      rw [h.values]
      exact Entries.keys_insert_congr h.values _ _ _

/-- Fields of one form do not tell alike updates apart. -/
theorem Alike.addFields (fields : List (String × Change)) :
    ∀ {fields' : List (String × Change)} {e e' : UpdateExpression}, Alike e e' →
      (fields.map fun field => (field.1, field.2.action.1)) =
        (fields'.map fun field => (field.1, field.2.action.1)) →
      addFields serializer schema fields e = .ok r →
      addFields serializer' schema fields' e' = .ok r' → Alike r r' := by
  induction fields with
  | nil =>
      intro fields' e e' h hform hadd hadd'
      obtain rfl := List.map_eq_nil_iff.mp hform.symm
      cases hadd
      cases hadd'
      exact h
  | cons field fields ih =>
      intro fields' e e' h hform hadd hadd'
      cases fields' with
      | nil => cases hform
      | cons field' fields' =>
          obtain ⟨name, c⟩ := field
          obtain ⟨name', c'⟩ := field'
          rw [List.map_cons, List.map_cons, List.cons.injEq, Prod.mk.injEq] at hform
          obtain ⟨⟨hname, haction⟩, hform⟩ := hform
          cases hname
          rw [UpdateExpression.addFields] at hadd hadd'
          obtain ⟨e₁, hfirst, hrest⟩ := bind_eq_ok.mp hadd
          obtain ⟨e₁', hfirst', hrest'⟩ := bind_eq_ok.mp hadd'
          exact ih (h.addField haction hfirst hfirst') hform hrest hrest'

/-- **Updates of one form compile alike.** -/
theorem alike_of_form {u u' : Update} (hform : u.form = u'.form)
    (h : u.compile serializer schema = .ok e) (h' : u'.compile serializer' schema = .ok e') :
    Alike e e' :=
  Alike.addFields u.fields ⟨rfl, rfl, rfl⟩ hform h h'

end UpdateExpression

/-! ### Conditions -/

namespace Condition

/-- The truth value with which the existence of an attribute is asked. -/
def truth? : Option Value → Option Bool
  | some (.leaf (.bool b)) => some b
  | _ => none

/-- What a condition shows without its values. -/
structure Form where
  path : String
  operator : Operator
  /-- It has a first operand. -/
  first : Bool
  /-- It has a second operand. -/
  second : Bool
  /-- The number of candidates of a choice. -/
  choices : Option Nat
  /-- Which way the existence of an attribute is asked. -/
  truth : Option Bool
  deriving DecidableEq

def form (c : Condition) : Form where
  path := c.path
  operator := c.operator
  first := c.value.isSome
  second := c.value2.isSome
  choices := if c.operator = .oneOf then (c.value.bind Value.asList?).map List.length else none
  truth := if c.operator = .call .attributeExists then truth? c.value else none

/-- The operator that a condition of this form asks with, and the number of its operands. -/
def Form.shape (f : Form) : Operator × Nat :=
  match f.operator with
  | .compare c => (.compare c, 1)
  | .between => (.between, 2)
  | .oneOf => (.oneOf, f.choices.getD 0)
  | .call .attributeExists =>
    (.call (if f.truth = some false then .attributeNotExists else .attributeExists), 0)
  | .call g => (.call g, if f.first then 1 else 0)

end Condition

namespace Test

/-- The operator a test asks with, and the number of its operands. -/
def shape (t : Test) : Operator × Nat :=
  (t.operator, t.operands.length)

theorem shape_ofChoice {path : String} {value value2 : Option Value} {t : Test}
    (h : ofChoice value value2 = .ok t) :
    t.shape = (Condition.mk path .oneOf value value2).form.shape := by
  unfold ofChoice at h
  split at h
  · cases h
  · cases h
    simp [shape, operator, operands, Condition.form, Condition.Form.shape, Value.asList?]
  · cases h
  · cases h

theorem shape_ofCall {f : Function} {path : String} {value value2 : Option Value} {t : Test}
    (h : ofCall f (value.map Value.normalized) value2 = .ok t) :
    t.shape = (Condition.mk path (.call f) value value2).form.shape := by
  by_cases hf : f = .attributeExists
  · subst hf
    -- With any other operands the call is refused.
    match value, value2 with
    | none, none => cases h; rfl
    | some (.leaf (.bool true)), none => cases h; rfl
    | some (.leaf (.bool false)), none => cases h; rfl
  · have hshape : (Condition.mk path (.call f) value value2).form.shape =
        (.call f, if value.isSome then 1 else 0) := by
      cases f <;> first | rfl | exact absurd rfl hf
    rw [hshape]
    simp only [ofCall, if_neg hf] at h
    split at h
    · cases h
    · cases value2 with
      | some w => cases h
      | none =>
          cases h
          cases value <;> rfl

end Test

/-- **The form of a condition that is accepted says what is asked.** -/
theorem Condition.shape_of_test {c : Condition} {t : Test} (h : c.test = .ok t) :
    t.shape = c.form.shape := by
  obtain ⟨path, op, value, value2⟩ := c
  rw [test] at h
  -- Operands that do not fit the operator are refused.
  cases op with
  | compare op =>
      cases value with
      | none => cases h
      | some v =>
          cases value2 with
          | none => cases h; rfl
          | some w => cases h
  | between =>
      cases value with
      | none => cases h
      | some v =>
          cases value2 with
          | none => cases h
          | some w => cases h; rfl
  | oneOf => exact Test.shape_ofChoice h
  | call f => exact Test.shape_ofCall h

namespace Test

/-- The statement of a test is known from its operator and the placeholders. -/
theorem statement_congr {t t' : Test} (h : t.operator = t'.operator) (target : String)
    (ps : List String) : t.statement target ps = t'.statement target ps := by
  cases t <;> cases t' <;> cases h <;> rfl

end Test

/-- What an expression shows without its values. -/
def Expression.face (e : Expression) : String × Dict String × List String :=
  (e.statement, e.names, e.valueNames)

namespace Builder

open Placeholder

/-- Builders that differ in values alone. -/
structure Alike (b b' : Builder) : Prop where
  fragments : b.fragments = b'.fragments
  names : b.names = b'.names
  values : b.values.keys = b'.values.keys
  reserved : b.reserved = b'.reserved

variable {b b' r r' : Builder} {c c' : Condition}

theorem Alike.build_eq (h : Alike b b') :
    b.build.map Expression.face = b'.build.map Expression.face := by
  rw [build, build, h.fragments]
  split
  · rfl
  · rw [Option.map_some, Option.map_some, Expression.face, Expression.face, Expression.valueNames,
      Expression.valueNames, h.names, h.values]

/-- A test of one shape does not tell alike builders apart. -/
theorem Alike.push (h : Alike b b') (path : String) {t t' : Test} (hshape : t.shape = t'.shape) :
    Alike (b.push path t) (b'.push path t') := by
  obtain ⟨hoperator, hlength⟩ := Prod.mk.inj hshape
  have hplaceholders :=
    map_fst_forValues_congr path t.operands hlength (b.reserved ++ b.values.keys)
  refine ⟨?_, by rw [names_push, names_push, h.names], ?_, h.reserved⟩
  · rw [fragments_push, fragments_push, Test.fragment, Test.fragment, ← h.fragments, ← h.names,
      ← h.values, ← h.reserved, hplaceholders, Test.statement_congr hoperator]
  · refine Entries.keys_ext fun q => ?_
    rw [values_push, values_push, mem_keys_union_ofList, mem_keys_union_ofList, ← h.values,
      ← h.reserved, hplaceholders]

/-- **One condition more does not tell alike builders apart**, whatever its values. -/
theorem Alike.add (h : Alike b b') (hform : c.form = c'.form) (hadd : b.add c = .ok r)
    (hadd' : b'.add c' = .ok r') : Alike r r' := by
  obtain ⟨t, ht, rfl⟩ := eq_push_of_condition hadd
  obtain ⟨t', ht', rfl⟩ := eq_push_of_condition hadd'
  have hpath : c.path = c'.path := congrArg Condition.Form.path hform
  rw [← hpath]
  refine h.push c.path ?_
  rw [Condition.shape_of_test ht, Condition.shape_of_test ht', hform]

theorem Alike.addAll (cs : List Condition) :
    ∀ {cs' : List Condition} {b b' : Builder}, Alike b b' →
      cs.map Condition.form = cs'.map Condition.form →
      b.addAll cs = .ok r → b'.addAll cs' = .ok r' → Alike r r' := by
  induction cs with
  | nil =>
      intro cs' b b' h hform hadd hadd'
      obtain rfl := List.map_eq_nil_iff.mp hform.symm
      cases hadd
      cases hadd'
      exact h
  | cons c cs ih =>
      intro cs' b b' h hform hadd hadd'
      cases cs' with
      | nil => cases hform
      | cons c' cs' =>
          rw [List.map_cons, List.map_cons, List.cons.injEq] at hform
          rw [Builder.addAll, List.foldlM_cons] at hadd hadd'
          obtain ⟨b₁, hfirst, hrest⟩ := bind_eq_ok.mp hadd
          obtain ⟨b₁', hfirst', hrest'⟩ := bind_eq_ok.mp hadd'
          exact ih (h.add hform.1 hfirst hfirst') hform.2 hrest hrest'

end Builder

/--
**Values never reach the text of an expression.**

Two updates of one form that compile under one schema, each with a serializer of its own, have the
same text, the same names and the same placeholders for values; and so have the expressions built of
two lists of conditions of one form, if the same is reserved for them.  The texts are made of the
words of their grammar and of placeholders, whatever the fields and the attributes are called.
-/
theorem values_never_reach_text :
    (∀ (serializer serializer' : Serializer) (schema : Schema) (u u' : Update)
        (e e' : UpdateExpression), u.form = u'.form →
      u.compile serializer schema = .ok e → u'.compile serializer' schema = .ok e' →
        e.face = e'.face ∧ Text.DrawnFrom UpdateExpression.vocabulary e.statement) ∧
    ∀ (reserved : List String) (cs cs' : List Condition) (b b' : Builder),
      cs.map Condition.form = cs'.map Condition.form →
      ((∅ : Builder).reserve reserved).addAll cs = .ok b →
      ((∅ : Builder).reserve reserved).addAll cs' = .ok b' →
        b.build.map Expression.face = b'.build.map Expression.face ∧
          ∀ e, b.build = some e → Text.DrawnFrom Operator.vocabulary e.statement := by
  refine ⟨fun serializer serializer' schema u u' e e' hform h h' => ?_,
    fun reserved cs cs' b b' hform h h' => ?_⟩
  · exact ⟨(UpdateExpression.alike_of_form hform h h').face_eq, Update.drawn_statement h⟩
  · refine ⟨(Builder.Alike.addAll cs ⟨rfl, rfl, rfl, rfl⟩ hform h h').build_eq, fun e he => ?_⟩
    exact ((Builder.Reachable.empty.reserve reserved).addAll cs h).drawn_build he

/-- Two updates and two lists of conditions, in which one run has plain values and the other has
values that are expressions themselves. -/
theorem values_never_reach_text_hostile :
    let schema := Schema.ofHashKey "id" .string
    let update (v w : Value) (last : Change) : Update := { fields := [
      ("full name", .set v), ("visits", .increment w), ("x = :y", last)] }
    let u := update (.text "Ann") (.ofInt 1) .remove
    let u' := update (.text ":v REMOVE #id") (.ofInt 22) (.set .null)
    let conditions (v : Value) (vs : List Value) : List Condition := [
      { path := "a.b c", operator := .compare .eq, value := some v },
      { path := "tag", operator := .oneOf, value := some (.list vs) },
      { path := "gone", operator := .call .attributeExists, value := some (.bool false) }]
    let cs := conditions (.text "x") [.ofInt 1, .ofInt 2]
    let cs' := conditions (.text ") OR (#a = #a") [.null, .list [Value.ofInt 1]]
    u.form = u'.form ∧ cs.map Condition.form = cs'.map Condition.form ∧
      (∃ e e', u.compile Encoding.standard schema = .ok e ∧
        u'.compile Encoding.standard schema = .ok e' ∧ e.face = e'.face ∧
        e'.statement = "SET #fullname = :fullname ADD #visits :visits REMOVE #xy" ∧
        Text.DrawnFrom UpdateExpression.vocabulary e.statement) ∧
      ∃ b b', ((∅ : Builder).reserve [":tag"]).addAll cs = .ok b ∧
        ((∅ : Builder).reserve [":tag"]).addAll cs' = .ok b' ∧
        b.build.map Expression.face = b'.build.map Expression.face ∧
        b'.build.map Expression.statement = some
          "#a.#bc = :a_bc AND #tag IN (:tag_2, :tag_3) AND attribute_not_exists(#gone)" ∧
        ∀ e, b.build = some e → Text.DrawnFrom Operator.vocabulary e.statement := by
  intro schema update u u' conditions cs cs'
  have hform : u.form = u'.form := by decide +kernel
  have hforms : cs.map Condition.form = cs'.map Condition.form := by decide +kernel
  obtain ⟨hupdates, hconditions⟩ := values_never_reach_text
  refine ⟨hform, hforms, ?_, ?_⟩
  · obtain ⟨e, e', h, h', htext⟩ : ∃ e e', u.compile Encoding.standard schema = .ok e ∧
        u'.compile Encoding.standard schema = .ok e' ∧
        e'.statement = "SET #fullname = :fullname ADD #visits :visits REMOVE #xy" :=
      ⟨_, _, rfl, rfl, by decide +kernel⟩
    obtain ⟨hface, hdrawn⟩ := hupdates _ _ schema u u' e e' hform h h'
    exact ⟨e, e', h, h', hface, htext, hdrawn⟩
  · obtain ⟨b, b', h, h', htext⟩ : ∃ b b', ((∅ : Builder).reserve [":tag"]).addAll cs = .ok b ∧
        ((∅ : Builder).reserve [":tag"]).addAll cs' = .ok b' ∧ b'.build.map Expression.statement =
          some "#a.#bc = :a_bc AND #tag IN (:tag_2, :tag_3) AND attribute_not_exists(#gone)" :=
      ⟨_, _, rfl, rfl, by decide +kernel⟩
    obtain ⟨hface, hdrawn⟩ := hconditions [":tag"] cs cs' b b' hforms h h'
    exact ⟨b, b', h, h', hface, htext, hdrawn⟩

end ItemStore
