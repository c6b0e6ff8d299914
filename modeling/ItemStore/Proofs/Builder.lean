/-
The tables of joined conditions are exact.

However a builder was reached, the placeholders in its statement are those its tables bind,
and neither more nor fewer: every value placeholder stands in one place of the text, and
every attribute has one name placeholder wherever it occurs.  `Expression.Exact` says so of
an expression, and a reader of expressions can rely on it.

The invariant behind it (`Coherent`) is about the fragments, since they are what grows.  A
further condition adds one fragment and extends both tables by what stands in it
(`push`): the names by placeholders that agree with what is bound, the values by
placeholders that are new.
-/
import ItemStore.Expression.Builder
import ItemStore.Proofs.Test

namespace ItemStore

open Placeholder PathPlaceholders

/-- The tables bind what stands in the statement and nothing else, every value stands there
once, and no attribute has two placeholders. -/
structure Expression.Exact (e : Expression) : Prop where
  names : ∀ p, p ∈ Text.tokens '#' e.statement ↔ p ∈ e.names.keys
  values : ∀ q, q ∈ Text.tokens ':' e.statement ↔ q ∈ e.values.keys
  once : (Text.tokens ':' e.statement).Nodup
  distinct : ∀ p p' name, e.names.find? p = some name → e.names.find? p' = some name → p = p'

namespace Builder

variable {b b' : Builder} {path : String} {op : Operator} {value value2 : Option Value}

/-- All conditions joined by AND, which an empty builder does not build. -/
def joined (b : Builder) : Expression where
  statement := " AND ".intercalate b.fragments
  names := b.names
  values := b.values

/-- The builders there can be: what reservations and conditions make of an empty one. -/
inductive Reachable : Builder → Prop
  | empty : Reachable ∅
  | reserve {b : Builder} (h : Reachable b) (names : List String) : Reachable (b.reserve names)
  | condition {b b' : Builder} {path : String} {op : Operator} {value value2 : Option Value}
      (h : Reachable b) (added : b.condition path op value value2 = .ok b') : Reachable b'

/-- What a further condition on a path does: it adds one fragment and changes no binding.
An attribute that is bound keeps its placeholder and gets no other, and the values have
placeholders that were neither reserved nor bound. -/
structure Adds (b : Builder) (path : String) (fragment : String) (b' : Builder) : Prop where
  fragments : b'.fragments = b.fragments ++ [fragment]
  reserved : b'.reserved = b.reserved
  names : ∀ p name, b.names.find? p = some name → b'.names.find? p = some name
  values : ∀ q v, b.values.find? q = some v → b'.values.find? q = some v
  asks : (Text.tokens '#' fragment).map b'.names.find? = (pathSegments path).map some
  reuses : ∀ p name, b.names.find? p = some name →
    ∀ p', b'.names.find? p' = some name → p' = p
  mints : ∀ q ∈ Text.tokens ':' fragment, q ∉ b.reserved ∧ q ∉ b.values.keys

/-! ### One condition -/

/-- The builder with one test more: the names extended by what the path adds to them, the
values by those of the test. -/
def push (b : Builder) (path : String) (t : Test) : Builder :=
  { b with
    fragments := b.fragments ++
      [(t.fragment path (b.reserved ++ b.values.keys) b.names).statement]
    names := b.names.extend (assign (pathSegments path) b.names)
    values := b.values.union
      (.ofList (forValues path t.operands (b.reserved ++ b.values.keys))) }

@[simp] theorem fragments_push (b : Builder) (path : String) (t : Test) :
    (b.push path t).fragments = b.fragments ++
      [(t.fragment path (b.reserved ++ b.values.keys) b.names).statement] := rfl

@[simp] theorem names_push (b : Builder) (path : String) (t : Test) :
    (b.push path t).names = b.names.extend (assign (pathSegments path) b.names) := rfl

@[simp] theorem values_push (b : Builder) (path : String) (t : Test) :
    (b.push path t).values = b.values.union
      (.ofList (forValues path t.operands (b.reserved ++ b.values.keys))) := rfl

/-- The placeholders of a path are merged into the table they were found for. -/
theorem mergeNames_assign (names : Dict String) (segments : List String) :
    Expression.mergeNames names (Entries.ofList (assign segments names)).toList =
      .ok (names.extend (assign segments names)) := by
  have hagree := agree_assign segments names
  rw [← Entries.union_ofList hagree]
  refine Expression.mergeWith_toList fun p segment bound hnew hold => ?_
  have hassigned := find?_of_mem_assign segments ((Entries.find?_ofList_iff hagree).mp hnew)
  rw [find?_extend_assign segments hold] at hassigned
  exact Option.some.inj hassigned

/-- **What a condition does to a builder**: the operands are checked, then the path, and
nothing else can fail. -/
theorem condition_eq : b.condition path op value value2 =
    Test.ofOperands op value value2 >>= fun t =>
      if (pathSegments path).any fun s => (Text.clean s).isEmpty then
        .error (.argument (.wordlessPath path))
      else .ok (b.push path t) := by
  rw [condition]
  congr 1
  funext t
  rw [Test.compile_eq]
  split
  · rfl
  · change (Expression.mergeNames b.names
      (Entries.ofList (assign (pathSegments path) b.names)).toList >>= _) = _
    rw [mergeNames_assign]
    rfl

theorem eq_push_of_condition (h : b.condition path op value value2 = .ok b') :
    ∃ t : Test, Test.ofOperands op value value2 = .ok t ∧ b' = b.push path t := by
  rw [condition_eq] at h
  obtain ⟨t, ht, h⟩ := bind_eq_ok.mp h
  split at h
  · cases h
  · cases h
    exact ⟨t, ht, rfl⟩

/-- A further condition changes no name that is bound. -/
theorem find?_names_push {p name : String} (path : String) (t : Test)
    (hp : b.names.find? p = some name) : (b.push path t).names.find? p = some name :=
  find?_extend_assign _ hp

/-- A further condition changes no value that is bound. -/
theorem find?_values_push {q : String} {v : Value} (path : String) (t : Test)
    (hq : b.values.find? q = some v) : (b.push path t).values.find? q = some v := by
  have hold : q ∈ b.reserved ++ b.values.keys :=
    List.mem_append_right _ ((Entries.mem_keys_iff _).mpr ⟨v, hq⟩)
  have hnew : q ∉ (Entries.ofList
      (forValues path t.operands (b.reserved ++ b.values.keys))).keys := by
    rw [Entries.mem_keys_ofList (Entries.Agree.of_nodup (nodup_forValues _ _ _))]
    exact fun hmem => forValues_not_mem _ _ _ q hmem hold
  rw [push, Entries.find?_union, (Entries.not_mem_keys_iff _).mp hnew, Option.none_or, hq]

/-! ### The invariant -/

/-- The fragments and the tables of a builder fit together. -/
structure Coherent (b : Builder) : Prop where
  settled : Settled b.names
  names : ∀ p, p ∈ b.fragments.flatMap (Text.tokens '#') ↔ p ∈ b.names.keys
  values : ∀ q, q ∈ b.fragments.flatMap (Text.tokens ':') ↔ q ∈ b.values.keys
  once : (b.fragments.flatMap (Text.tokens ':')).Nodup

theorem coherent_empty : Coherent ∅ where
  settled := settled_empty
  names _ := Iff.rfl
  values _ := Iff.rfl
  once := List.nodup_nil

theorem Coherent.reserve (h : Coherent b) (names : List String) : Coherent (b.reserve names) :=
  ⟨h.settled, h.names, h.values, h.once⟩

theorem mem_keys_union_ofList (values : Dict Value) (t : Test) (taken : List String)
    {q : String} : q ∈ (values.union (.ofList (forValues path t.operands taken))).keys ↔
      q ∈ values.keys ∨ q ∈ (forValues path t.operands taken).map (·.1) := by
  rw [Entries.mem_keys_union,
    Entries.mem_keys_ofList (Entries.Agree.of_nodup (nodup_forValues path t.operands taken))]

/-- **A condition keeps fragments and tables together.** -/
theorem Coherent.condition (h : Coherent b)
    (hadd : b.condition path op value value2 = .ok b') : Coherent b' := by
  obtain ⟨t, -, rfl⟩ := eq_push_of_condition hadd
  refine ⟨settled_extend_assign _ h.settled, fun p => ?_, fun q => ?_, ?_⟩
  · rw [fragments_push, names_push, List.flatMap_append, List.mem_append, h.names,
      Entries.mem_keys_extend, List.flatMap_singleton, Test.tokens_hash_fragment]
  · rw [fragments_push, values_push, List.flatMap_append, List.mem_append, h.values,
      mem_keys_union_ofList, List.flatMap_singleton, Test.tokens_colon_fragment]
  · rw [fragments_push, List.flatMap_append, List.flatMap_singleton, Test.tokens_colon_fragment]
    refine List.nodup_append.mpr ⟨h.once, nodup_forValues _ _ _, fun q hq q' hq' he => ?_⟩
    subst he
    -- What stands in an earlier fragment is bound, and nothing bound is given out again.
    refine forValues_not_mem _ _ _ q hq' (List.mem_append_right _ ?_)
    exact (h.values q).mp hq

/-- **Every builder there can be is coherent.** -/
theorem Reachable.coherent (h : Reachable b) : Coherent b := by
  induction h with
  | empty => exact coherent_empty
  | reserve _ names ih => exact ih.reserve names
  | condition _ added ih => exact ih.condition added

/-! ### Built expressions -/

theorem Coherent.exact (h : Coherent b) : b.joined.Exact := by
  have htokens : ∀ sigil ∈ sigils, Text.tokens sigil (" AND ".intercalate b.fragments) =
      b.fragments.flatMap (Text.tokens sigil) := by
    intro sigil hsigil
    exact Text.tokens_intercalate (separates_of_sigils hsigil _ (by decide)) b.fragments
  refine ⟨fun p => ?_, fun q => ?_, ?_, fun p p' name hp hp' => h.settled.injective hp hp'⟩
  · rw [joined, htokens '#' (by decide)]
    exact h.names p
  · rw [joined, htokens ':' (by decide)]
    exact h.values q
  · rw [joined, htokens ':' (by decide)]
    exact h.once

theorem Coherent.adds (h : Coherent b)
    (hadd : b.condition path op value value2 = .ok b') : ∃ fragment, b.Adds path fragment b' := by
  have hcoherent := h.condition hadd
  obtain ⟨t, -, rfl⟩ := eq_push_of_condition hadd
  refine ⟨_, rfl, rfl, fun p name => find?_names_push path t,
    fun q v => find?_values_push path t, ?_, ?_, ?_⟩
  · rw [Test.tokens_hash_fragment]
    exact map_find?_assign (pathSegments path) b.names
  · intro p name hp p' hp'
    exact hcoherent.settled.injective hp' (find?_names_push path t hp)
  · intro q hq
    rw [Test.tokens_colon_fragment] at hq
    have hnot := forValues_not_mem _ _ _ q hq
    rwa [List.mem_append, not_or] at hnot

/-- **The tables of joined conditions are exact and stable.**  What is built is all that was
joined, its tables bind what stands in the statement, and any further condition only adds. -/
theorem Reachable.build_exact (h : Reachable b) :
    b.joined.Exact ∧ (∀ e, b.build = some e → e = b.joined) ∧
    ∀ path op value value2 b', b.condition path op value value2 = .ok b' →
      ∃ fragment, b.Adds path fragment b' := by
  refine ⟨h.coherent.exact, fun e hbuild => ?_,
    fun path op value value2 b' hadd => h.coherent.adds hadd⟩
  rw [build] at hbuild
  split at hbuild
  · cases hbuild
  · cases hbuild
    rfl

/-- A name in use elsewhere, and a segment whose placeholder another has taken. -/
theorem build_exact_sample :
    let b : Builder := {
      fragments := ["#a.#b BETWEEN :a_b_2 AND :a_b_3"]
      names := .ofList [("#a", "a"), ("#b", "b")]
      values := .ofList [(":a_b_2", .ofInt 1), (":a_b_3", .ofInt 2)]
      reserved := [":a_b"] }
    let b' : Builder := {
      fragments := ["#a.#b BETWEEN :a_b_2 AND :a_b_3", "#b_2.#b = :b_b"]
      names := .ofList [("#a", "a"), ("#b", "b"), ("#b_2", "b-")]
      values := .ofList [(":a_b_2", .ofInt 1), (":a_b_3", .ofInt 2), (":b_b", .text "x")]
      reserved := [":a_b"] }
    ((∅ : Builder).reserve [":a_b"]).condition "a.b" .between
      (some (.ofInt 1)) (some (.ofInt 2)) = .ok b ∧
    b.condition "b-.b" (.compare .eq) (some (.text "x")) none = .ok b' ∧
    b.joined.Exact ∧ (∀ e, b.build = some e → e = b.joined) ∧
    ∃ fragment, b.Adds "b-.b" fragment b' := by
  intro b b'
  have hfirst : ((∅ : Builder).reserve [":a_b"]).condition "a.b" .between
      (some (.ofInt 1)) (some (.ofInt 2)) = .ok b := by decide +kernel
  have hsecond : b.condition "b-.b" (.compare .eq) (some (.text "x")) none = .ok b' := by
    decide +kernel
  have hreach : b.Reachable := (Reachable.empty.reserve [":a_b"]).condition hfirst
  obtain ⟨hexact, hbuild, hadds⟩ := hreach.build_exact
  exact ⟨hfirst, hsecond, hexact, hbuild, hadds _ _ _ _ _ hsecond⟩

end Builder

end ItemStore
