/-
Two ways to join conditions.

Conditions can be given to a builder one after another, or each can be compiled on its own
and joined with those before it by AND.  The builder knows what it has bound and finds
placeholders beside that; a condition on its own is told the value placeholders in use, but
nothing of the names, and may take for one name a placeholder that stands for another.  Then
the two ways part: the builder moves on to the next candidate, and joining fails.

Where joining does not fail, every placeholder that was found without the table is one that
the table leaves free, or binds to that very name.  The search with the table passes over no
fewer candidates and finds no reason to stop later, so it stops at the same one
(`forName_eq_of_subtable`), and path by path the two ways go on with the same expression
(`Matches.push`).
-/
import ItemStore.Proofs.Builder
import ItemStore.Proofs.Join

namespace ItemStore

open Placeholder PathPlaceholders

/-- A condition as it is asked for. -/
structure Condition where
  path : String
  operator : Operator
  value : Option Value := none
  value2 : Option Value := none
  deriving DecidableEq

namespace Condition

/-- The test that the condition asks, if its operands fit. -/
def test (c : Condition) : Except Error Test :=
  Test.ofOperands c.operator c.value c.value2

/-- The condition compiled on its own, clear of the value placeholders given. -/
def alone (c : Condition) (taken : List String) : Except Error Expression :=
  filterExpression c.path c.operator taken c.value c.value2

end Condition

/-- Gives a condition to a builder. -/
def Builder.add (b : Builder) (c : Condition) : Except Error Builder :=
  b.condition c.path c.operator c.value c.value2

/-- Gives conditions to a builder one after another. -/
def Builder.addAll (b : Builder) (cs : List Condition) : Except Error Builder :=
  cs.foldlM add b

/-- Compiles conditions each on its own, clear of what is reserved and of what those before
it use, and joins them one after another. -/
def Expression.joinAll (reserved : List String) (e : Expression) (cs : List Condition) :
    Except Error Expression :=
  cs.foldlM (fun e c => c.alone (reserved ++ e.valueNames) >>= e.and) e

/-! ### The same placeholders -/

/-- With more names bound the search ends at the same placeholder, if that is still free. -/
theorem Placeholder.forName_eq_of_subtable {name : String} {names names' : Dict String}
    (hsub : ∀ p a, names'.find? p = some a → names.find? p = some a)
    (hfree : names.find? (forName name names') = none ∨
      names.find? (forName name names') = some name) :
    forName name names = forName name names' := by
  obtain ⟨m, hm, -, hbefore⟩ := forName_spec name names'
  rw [hm] at hfree ⊢
  refine forName_eq_candidate hfree fun j hj => ?_
  obtain ⟨other, hother, hne⟩ := hbefore j hj
  exact ⟨other, hsub _ _ hother, hne⟩

/-- The placeholders of a path are the same beside more names, if they clash with none. -/
theorem PathPlaceholders.assign_eq_of_subtable (segments : List String) :
    ∀ {names names' : Dict String},
      (∀ p a, names'.find? p = some a → names.find? p = some a) →
      (∀ p segment bound, (p, segment) ∈ assign segments names' →
        names.find? p = some bound → bound = segment) →
      assign segments names = assign segments names' := by
  induction segments with
  | nil => intros; rfl
  | cons segment segments ih =>
      intro names names' hsub hagree
      have hfirst : forName segment names = forName segment names' := by
        refine forName_eq_of_subtable hsub ?_
        cases hbound : names.find? (forName segment names') with
        | none => exact Or.inl rfl
        | some bound =>
            exact Or.inr (congrArg some (hagree _ segment _ (by simp [assign]) hbound))
      rw [assign, assign, hfirst]
      congr 1
      refine ih (fun p a => ?_) fun p segment' bound hmem => ?_
      · rw [Entries.find?_insert, Entries.find?_insert]
        split
        · exact id
        · exact hsub p a
      · rw [Entries.find?_insert]
        split
        · -- The first segment has this placeholder, so that no other segment is given it.
          rename_i hp
          intro hbound
          have hlater := find?_of_mem_assign segments hmem
          have hfirst' : (names'.insert (forName segment names') segment).find? p =
              some segment := by
            rw [Entries.find?_insert, if_pos hp]
          rw [find?_extend_assign segments hfirst'] at hlater
          exact (Option.some.inj hbound).symm.trans (Option.some.inj hlater)
        · exact hagree p segment' bound (List.mem_cons_of_mem _ hmem)

/-- A fragment is the same beside more names, if its own clash with none. -/
theorem Test.fragment_eq_of_agrees {names : Dict String} (t : Test) (path : String)
    (taken : List String) (hagree : ∀ p segment bound,
      (t.fragment path taken ∅).names.find? p = some segment →
      names.find? p = some bound → bound = segment) :
    t.fragment path taken names = t.fragment path taken ∅ := by
  have hassign : assign (pathSegments path) names = assign (pathSegments path) ∅ := by
    refine assign_eq_of_subtable _ (fun p a h => by cases h) fun p segment bound hmem => ?_
    exact hagree p segment bound
      ((Entries.find?_ofList_iff (agree_assign _ _)).mpr hmem)
  rw [fragment, fragment, hassign]

/-! ### Joining by AND -/

namespace Expression

variable {e f : Expression} {err : Error}

/-- **Where values agree, joining fails for a name only**: some placeholder stands for two. -/
theorem clash_of_and (hvalues : Agrees e.values f.values) (h : e.and f = .error err) :
    ∃ p bound name, err = .expression (.nameClash p bound name) ∧
      e.names.find? p = some bound ∧ f.names.find? p = some name ∧ bound ≠ name := by
  cases clash_of_error h with
  | name hleft hright hne => exact ⟨_, _, _, rfl, hleft, hright, hne⟩
  | value hleft hright hne => exact absurd (hvalues _ _ _ hright hleft) hne

/-- The values of a fragment that keeps clear of others clash with none of them. -/
theorem agrees_fragment_values {values : Dict Value} (t : Test) (path : String)
    {taken : List String} (names : Dict String) (htaken : ∀ q ∈ values.keys, q ∈ taken) :
    Agrees values (t.fragment path taken names).values := by
  intro q v bound hnew hold
  have hmem := (Entries.find?_ofList_iff
    (Entries.Agree.of_nodup (nodup_forValues path t.operands taken))).mp hnew
  exact absurd (htaken q ((Entries.mem_keys_iff values).mpr ⟨bound, hold⟩))
    (forValues_not_mem path t.operands taken q (List.mem_map.mpr ⟨_, hmem, rfl⟩))

/-- Joining a statement to others is to put it after them. -/
theorem joinStatements_intercalate {fragments : List String}
    (hfragments : ∀ s ∈ fragments, s ≠ "") {s : String} (hs : s ≠ "") :
    joinStatements (" AND ".intercalate fragments) s = " AND ".intercalate (fragments ++ [s]) := by
  cases fragments with
  | nil => simp [joinStatements]
  | cons first rest =>
      have hne : " AND ".intercalate (first :: rest) ≠ "" := by
        cases rest with
        | nil => simpa using hfragments first (by simp)
        | cons next rest => simp [String.intercalate_cons_cons]
      rw [String.intercalate_append_of_ne_nil (by simp) (by simp), String.intercalate_singleton,
        joinStatements, if_neg (by simpa using hne), if_neg (by simpa using hs)]

end Expression

/-! ### Side by side -/

theorem Test.statement_ne_empty (t : Test) (target : String) (ps : List String) :
    t.statement target ps ≠ "" := by
  cases t <;> simp [statement]

namespace Condition

/-- A condition is refused for its operands or its path, and never for what is in use. -/
theorem alone_eq (c : Condition) (taken : List String) :
    c.alone taken = c.test >>= fun t =>
      if (pathSegments c.path).any fun s => (Text.clean s).isEmpty then
        .error (.argument (.wordlessPath c.path))
      else .ok (t.fragment c.path taken ∅) := by
  rw [alone, filterExpression, test]
  congr 1
  funext t
  exact Test.compile_eq t c.path taken ∅

end Condition

namespace Builder

variable {b : Builder} {reserved : List String} {e f : Expression} {c : Condition}

/-- **A builder refuses what is refused on its own**, with the same error. -/
theorem add_eq_error_iff (b : Builder) (c : Condition) (taken : List String) (err : Error) :
    b.add c = .error err ↔ c.alone taken = .error err := by
  rw [add, condition_eq, Condition.alone_eq, ← Condition.test, bind_eq_error, bind_eq_error]
  refine or_congr Iff.rfl (exists_congr fun t => and_congr Iff.rfl ?_)
  split <;> simp

/-- A builder takes what compiles on its own. -/
theorem add_eq_ok_of_alone (b : Builder) {taken : List String} (h : c.alone taken = .ok f) :
    ∃ t, f = t.fragment c.path taken ∅ ∧ b.add c = .ok (b.push c.path t) := by
  rw [Condition.alone_eq] at h
  obtain ⟨t, ht, h⟩ := bind_eq_ok.mp h
  rw [add, condition_eq, ← Condition.test, ht]
  split at h
  · cases h
  · rename_i hpath
    cases h
    exact ⟨t, rfl, if_neg hpath⟩

/-- The builder has joined what the expression has, and keeps clear of what is reserved. -/
structure Matches (reserved : List String) (b : Builder) (e : Expression) : Prop where
  reserved : b.reserved = reserved
  joined : b.joined = e
  nonempty : ∀ s ∈ b.fragments, s ≠ ""

theorem matches_empty (reserved : List String) : Matches reserved ((∅ : Builder).reserve reserved) ∅ :=
  ⟨List.nil_append reserved, rfl, by simp [reserve, EmptyCollection.emptyCollection]⟩

/-- **The two go on alike**: where joining succeeds it makes of the expression what the
builder makes of what it has. -/
theorem Matches.push (h : Matches reserved b e) {path : String} {t : Test} {e' : Expression}
    (hand : e.and (t.fragment path (reserved ++ e.valueNames) ∅) = .ok e') :
    Matches reserved (b.push path t) e' := by
  obtain ⟨rfl, rfl, hnonempty⟩ := h
  obtain ⟨hcompatible, rfl⟩ := Expression.and_eq_ok_iff.mp hand
  rw [← t.fragment_eq_of_agrees path _ hcompatible.names]
  have hstatement := t.statement_ne_empty
    (".".intercalate ((assign (pathSegments path) b.names).map (·.1)))
    ((forValues path t.operands (b.reserved ++ b.values.keys)).map (·.1))
  have hjoin := Expression.joinStatements_intercalate hnonempty hstatement
  have hunion := Entries.union_ofList (agree_assign (pathSegments path) b.names) b.names
  refine ⟨rfl, ?_, fun s hs => ?_⟩
  · rw [Builder.joined, fragments_push, names_push, values_push, ← hunion, Test.fragment, ← hjoin]
    rfl
  · rw [fragments_push, List.mem_append, List.mem_singleton] at hs
    rcases hs with hold | rfl
    · exact hnonempty s hold
    · exact hstatement

/-- **As long as nothing fails, a builder has joined what was joined one by one.** -/
theorem Matches.addAll (cs : List Condition) :
    ∀ {b : Builder} {e e' : Expression}, Matches reserved b e → e.joinAll reserved cs = .ok e' →
      ∃ b', b.addAll cs = .ok b' ∧ Matches reserved b' e' ∧
        b'.fragments.length = b.fragments.length + cs.length := by
  induction cs with
  | nil =>
      intro b e e' h hjoin
      cases hjoin
      exact ⟨b, rfl, h, rfl⟩
  | cons c cs ih =>
      intro b e e' h hjoin
      rw [Expression.joinAll, List.foldlM_cons] at hjoin
      obtain ⟨e₁, hfirst, hrest⟩ := bind_eq_ok.mp hjoin
      obtain ⟨f, halone, hand⟩ := bind_eq_ok.mp hfirst
      obtain ⟨t, rfl, hadd⟩ := b.add_eq_ok_of_alone halone
      obtain ⟨b', hadds, hmatches, hlength⟩ := ih (h.push hand) hrest
      refine ⟨b', ?_, hmatches, ?_⟩
      · rw [Builder.addAll, List.foldlM_cons, hadd]
        exact hadds
      · rw [hlength, fragments_push, List.length_append, List.length_singleton, List.length_cons]
        omega

theorem build_of_fragments (h : b.fragments ≠ []) : b.build = some b.joined := by
  rw [build, if_neg (by simpa using h)]
  rfl

end Builder

namespace Expression

/-- **A builder and joining one by one agree.**  Let conditions have been joined one by one
without failure.  Then a builder has taken them all and builds the same expression; it refuses
of all further conditions those that do not compile on their own, with the same error; and if
one that compiles cannot be joined, it is because of a name placeholder, which stands for one
name in the expression and for another in the fragment. -/
theorem joinAll_agrees {reserved : List String} {cs : List Condition} {e : Expression}
    (h : joinAll reserved ∅ cs = .ok e) :
    (∃ b, ((∅ : Builder).reserve reserved).addAll cs = .ok b ∧
      (cs ≠ [] → b.build = some e) ∧
      ∀ c err, b.add c = .error err ↔ c.alone (reserved ++ e.valueNames) = .error err) ∧
    ∀ (c : Condition) f err, c.alone (reserved ++ e.valueNames) = .ok f → e.and f = .error err →
      ∃ p bound name, err = .expression (.nameClash p bound name) ∧
        e.names.find? p = some bound ∧ f.names.find? p = some name ∧ bound ≠ name := by
  constructor
  · obtain ⟨b, hadds, hmatches, hlength⟩ := (Builder.matches_empty reserved).addAll cs h
    refine ⟨b, hadds, fun hne => ?_, fun c err => b.add_eq_error_iff c _ err⟩
    have hfragments : b.fragments ≠ [] := by
      intro hnil
      rw [hnil] at hlength
      have := List.length_pos_of_ne_nil hne
      rw [List.length_nil] at hlength
      omega
    rw [Builder.build_of_fragments hfragments, hmatches.joined]
  · intro c f err halone hand
    obtain ⟨t, rfl, -⟩ := (∅ : Builder).add_eq_ok_of_alone halone
    exact clash_of_and (agrees_fragment_values t c.path ∅ fun q hq =>
      List.mem_append_right _ hq) hand

/-- Names that clean to one another within one path, an attribute asked for again, and one
that cannot be joined any more. -/
theorem joinAll_agrees_sample :
    let reserved := [":ab"]
    let cs : List Condition := [
      { path := "a-.a", operator := .between, value := some (.ofInt 1), value2 := some (.ofInt 2) },
      { path := "a-.ab", operator := .call .attributeExists, value := some (.bool false) },
      { path := "ab", operator := .oneOf, value := some (.list [Value.text "x", Value.text "y"]) }]
    let c : Condition := { path := "a", operator := .compare .eq, value := some (.ofInt 3) }
    ∃ e f, joinAll reserved ∅ cs = .ok e ∧
      e.statement = "#a.#a_2 BETWEEN :a_a AND :a_a_2 AND attribute_not_exists(#a.#ab) AND " ++
        "#ab IN (:ab_2, :ab_3)" ∧
      c.alone (reserved ++ e.valueNames) = .ok f ∧
      e.and f = .error (.expression (.nameClash "#a" "a-" "a")) ∧
      (∃ b, ((∅ : Builder).reserve reserved).addAll cs = .ok b ∧ b.build = some e) ∧
      ∃ p bound name, e.names.find? p = some bound ∧ f.names.find? p = some name ∧
        bound ≠ name := by
  intro reserved cs c
  let e : Expression := {
    statement := "#a.#a_2 BETWEEN :a_a AND :a_a_2 AND attribute_not_exists(#a.#ab) AND " ++
      "#ab IN (:ab_2, :ab_3)"
    names := .ofList [("#a", "a-"), ("#a_2", "a"), ("#ab", "ab")]
    values := .ofList [(":a_a", .ofInt 1), (":a_a_2", .ofInt 2), (":ab_2", .text "x"),
      (":ab_3", .text "y")] }
  let f : Expression := {
    statement := "#a = :a", names := .ofList [("#a", "a")], values := .ofList [(":a", .ofInt 3)] }
  have he : joinAll reserved ∅ cs = .ok e := by decide +kernel
  have halone : c.alone (reserved ++ e.valueNames) = .ok f := by decide +kernel
  have hand : e.and f = .error (.expression (.nameClash "#a" "a-" "a")) := by decide +kernel
  obtain ⟨⟨b, hadds, hbuild, -⟩, hclash⟩ := joinAll_agrees he
  obtain ⟨p, bound, name, -, hboth⟩ := hclash c f _ halone hand
  exact ⟨e, f, he, rfl, halone, hand, ⟨b, hadds, hbuild (by decide)⟩, p, bound, name, hboth⟩

end Expression

end ItemStore
