/-
Fragments joined one after another.

A condition compiled on its own keeps clear of the value placeholders in use but knows nothing of
the names, and finds its name placeholders in an empty table.  So that every fragment compiles does
not yet mean that they can be joined: names that differ only in characters which no placeholder has
are given the same one.

What decides it are the paths alone.  The names of what was joined are those of its paths, each
bound as if there were no other (`BindsPaths`), and a table agrees with all of them just when it
agrees with each.  Hence joining succeeds just when every two of the paths can be joined
(`joinAll_eq_ok_iff_joinable`), whatever the operators and the values; and where all names along the
paths still differ without those characters, they can (`joinable_of_clean`).
-/
import ItemStore.Proofs.Conjunction

namespace ItemStore

open Placeholder PathPlaceholders

/-! ### Two paths -/

namespace PathPlaceholders

/-- The name placeholders of a path that knows of no other. -/
def table (path : String) : Dict String :=
  .ofList (assign (pathSegments path) ∅)

/-- No placeholder stands for different names in two paths that know nothing of one another. -/
def Joinable (path path' : String) : Prop :=
  Expression.Agrees (table path) (table path')

theorem find?_table_iff {path p name : String} :
    (table path).find? p = some name ↔ (p, name) ∈ assign (pathSegments path) ∅ :=
  Entries.find?_ofList_iff (agree_assign _ _)

theorem clean_eq_of_ofName_eq {name name' : String} (h : ofName name = ofName name') :
    Text.clean name = Text.clean name' := by
  apply String.toList_injective
  have hlist := congrArg String.toList h
  rw [ofName, ofName, String.toList_append, String.toList_append] at hlist
  exact List.append_cancel_left hlist

/-- Where no two names clean to the same word, every name has its first candidate. -/
theorem eq_ofName_of_mem_assign {within : List String}
    (hclean : ∀ s ∈ within, ∀ s' ∈ within, Text.clean s = Text.clean s' → s = s')
    (segments : List String) : ∀ {names : Dict String}, (∀ s ∈ segments, s ∈ within) →
      (∀ p s, names.find? p = some s → p = ofName s ∧ s ∈ within) →
      ∀ {p s}, (p, s) ∈ assign segments names → p = ofName s ∧ s ∈ within := by
  induction segments with
  | nil => intro names _ _ p s h; simp [assign] at h
  | cons segment segments ih =>
      intro names hsegments hnames p s h
      have hsegment : segment ∈ within := hsegments segment List.mem_cons_self
      have hfirst : forName segment names = ofName segment := by
        refine forName_eq_candidate (m := 0) ?_ (by simp)
        show names.find? (ofName segment) = none ∨ names.find? (ofName segment) = some segment
        cases hfind : names.find? (ofName segment) with
        | none => exact Or.inl rfl
        | some other =>
            obtain ⟨hname, hother⟩ := hnames _ _ hfind
            rw [hclean segment hsegment other hother (clean_eq_of_ofName_eq hname)]
            exact Or.inr rfl
      rw [assign, hfirst] at h
      rcases List.mem_cons.mp h with he | hlater
      · cases he
        exact ⟨rfl, hsegment⟩
      · refine ih (fun s hs => hsegments s (List.mem_cons_of_mem _ hs)) ?_ hlater
        intro p s hfind
        rw [Entries.find?_insert] at hfind
        by_cases hp : p = ofName segment
        · rw [if_pos hp] at hfind
          cases hfind
          exact ⟨hp, hsegment⟩
        · rw [if_neg hp] at hfind
          exact hnames p s hfind

/-- **Paths can be joined if no two of their names clean to the same word.** -/
theorem joinable_of_clean {path path' : String}
    (hclean : ∀ s ∈ pathSegments path ++ pathSegments path',
      ∀ s' ∈ pathSegments path ++ pathSegments path', Text.clean s = Text.clean s' → s = s') :
    Joinable path path' := by
  have hempty : ∀ p s, (∅ : Dict String).find? p = some s →
      p = ofName s ∧ s ∈ pathSegments path ++ pathSegments path' := by
    intro p s h
    cases h
  intro p name' name hright hleft
  obtain ⟨hp, hname⟩ := eq_ofName_of_mem_assign hclean _
    (fun s hs => List.mem_append_left _ hs) hempty (find?_table_iff.mp hleft)
  obtain ⟨hp', hname'⟩ := eq_ofName_of_mem_assign hclean _
    (fun s hs => List.mem_append_right _ hs) hempty (find?_table_iff.mp hright)
  exact hclean name hname name' hname' (clean_eq_of_ofName_eq (hp.symm.trans hp'))

end PathPlaceholders

/-! ### One fragment more -/

namespace Condition

variable {c : Condition} {taken : List String} {f : Expression}

/-- A fragment binds the names of its path, whatever is in use. -/
theorem names_of_alone (h : c.alone taken = .ok f) : f.names = table c.path := by
  obtain ⟨t, rfl, -⟩ := (∅ : Builder).add_eq_ok_of_alone h
  rfl

end Condition

namespace Expression

variable {reserved : List String} {e e' f : Expression} {c : Condition} {cs : List Condition}
  {paths : List String}

/-- The expression binds the names of these paths, each as if there were no other. -/
def BindsPaths (e : Expression) (paths : List String) : Prop :=
  ∀ p name, e.names.find? p = some name ↔ ∃ path ∈ paths, (table path).find? p = some name

theorem bindsPaths_empty : BindsPaths ∅ [] := by
  intro p name
  constructor
  · intro h
    cases h
  · rintro ⟨path, hpath, -⟩
    cases hpath

/-- A path can be joined with an expression if it can be with each of its paths. -/
theorem BindsPaths.agrees_iff (h : BindsPaths e paths) (path' : String) :
    Agrees e.names (table path') ↔ ∀ path ∈ paths, Joinable path path' := by
  constructor
  · intro hagrees path hpath p name bound hnew hold
    exact hagrees p name bound hnew ((h p bound).mpr ⟨path, hpath, hold⟩)
  · intro hall p name bound hnew hold
    obtain ⟨path, hpath, hold⟩ := (h p bound).mp hold
    exact hall path hpath p name bound hnew hold

/-- **A fragment that keeps clear of the values in use can be joined if its path can be.** -/
theorem BindsPaths.compatible_iff (h : BindsPaths e paths)
    (halone : c.alone (reserved ++ e.valueNames) = .ok f) :
    Compatible e f ↔ ∀ path ∈ paths, Joinable path c.path := by
  rw [← h.agrees_iff, ← Condition.names_of_alone halone]
  refine ⟨Compatible.names, fun hnames => ⟨hnames, ?_⟩⟩
  obtain ⟨t, rfl, -⟩ := (∅ : Builder).add_eq_ok_of_alone halone
  exact agrees_fragment_values t c.path ∅ fun q hq => List.mem_append_right _ hq

theorem BindsPaths.and (h : BindsPaths e paths) {taken : List String}
    (halone : c.alone taken = .ok f) (hand : e.and f = .ok e') :
    BindsPaths e' (paths ++ [c.path]) := by
  obtain ⟨hcompatible, rfl⟩ := and_eq_ok_iff.mp hand
  intro p name
  show (e.names.union f.names).find? p = some name ↔ _
  rw [find?_union_iff hcompatible.names, h p name, Condition.names_of_alone halone]
  simp only [List.mem_append, List.mem_singleton, or_and_right, exists_or, exists_eq_left]

/-! ### All of them -/

/-- Every condition compiles on its own when it is its turn, told the value placeholders of what was
joined before it.  Nothing is asked of those after one that cannot be joined. -/
def AcceptsInTurn (reserved : List String) : Expression → List Condition → Prop
  | _, [] => True
  | e, c :: cs => ∃ f, c.alone (reserved ++ e.valueNames) = .ok f ∧
      ∀ e', e.and f = .ok e' → AcceptsInTurn reserved e' cs

/-- What compiles at all compiles in its turn, since nothing that is in use keeps it from that. -/
theorem acceptsInTurn_of_isOk (cs : List Condition) :
    ∀ {e : Expression}, (∀ c ∈ cs, (c.alone []).isOk) → AcceptsInTurn reserved e cs := by
  induction cs with
  | nil => intro e _; trivial
  | cons c cs ih =>
      intro e h
      have hlater : ∀ c ∈ cs, (c.alone []).isOk := fun c hc => h c (List.mem_cons_of_mem _ hc)
      cases hempty : c.alone [] with
      | error err =>
          have hc := h c List.mem_cons_self
          rw [hempty] at hc
          cases hc
      | ok f =>
          rw [Condition.alone_eq] at hempty
          obtain ⟨t, ht, hpath⟩ := bind_eq_ok.mp hempty
          split at hpath
          · cases hpath
          · rename_i hwords
            refine ⟨t.fragment c.path (reserved ++ e.valueNames) ∅, ?_, fun e' _ => ih hlater⟩
            rw [Condition.alone_eq, ht]
            exact if_neg hwords

/-- The next condition is joined once it is compiled, and then those after it. -/
theorem joinAll_cons (halone : c.alone (reserved ++ e.valueNames) = .ok f)
    (cs : List Condition) : e.joinAll reserved (c :: cs) =
      e.and f >>= fun e' => e'.joinAll reserved cs := by
  rw [joinAll, List.foldlM_cons, halone]
  rfl

/-- **Joining goes through just when every two paths can be joined**, those that were joined
before among them. -/
theorem BindsPaths.exists_joinAll_iff (cs : List Condition) :
    ∀ {e : Expression} {paths : List String}, BindsPaths e paths → AcceptsInTurn reserved e cs →
      ((∃ e', e.joinAll reserved cs = .ok e') ↔
        (∀ path ∈ paths, ∀ c ∈ cs, Joinable path c.path) ∧
          cs.Pairwise fun c c' => Joinable c.path c'.path) := by
  induction cs with
  | nil =>
      intro e paths _ _
      simp [joinAll, pure, Except.pure]
  | cons c cs ih =>
      intro e paths h haccepts
      obtain ⟨f, halone, hlater⟩ := haccepts
      have hcompatible := h.compatible_iff halone
      rw [joinAll_cons halone]
      by_cases hand : Compatible e f
      · have hboth : e.and f = .ok (e.both f) := and_eq_ok_iff.mpr ⟨hand, rfl⟩
        rw [hboth]
        refine (ih (h.and halone hboth) (hlater _ hboth)).trans ?_
        have hpaths := hcompatible.mp hand
        rw [List.forall_mem_append, List.forall_mem_singleton, List.pairwise_cons]
        simp only [List.forall_mem_cons]
        constructor
        · rintro ⟨⟨hold, hnew⟩, hrest⟩
          exact ⟨fun path hpath => ⟨hpaths path hpath, hold path hpath⟩, hnew, hrest⟩
        · rintro ⟨hold, hnew, hrest⟩
          exact ⟨⟨fun path hpath => (hold path hpath).2, hnew⟩, hrest⟩
      · constructor
        · rintro ⟨e', hjoin⟩
          obtain ⟨e₁, hfirst, -⟩ := bind_eq_ok.mp hjoin
          exact absurd (and_eq_ok_iff.mp hfirst).1 hand
        · rintro ⟨hall, -⟩
          exact absurd (hcompatible.mpr fun path hpath => hall path hpath c List.mem_cons_self) hand

/-- **Where joining fails, a name clashes**: a placeholder of the fragment that cannot be joined
stands for another name in the path of one before it. -/
theorem BindsPaths.clash_of_joinAll (cs : List Condition) :
    ∀ {e : Expression} {paths : List String} {err : Error}, BindsPaths e paths →
      AcceptsInTurn reserved e cs → e.joinAll reserved cs = .error err →
      ∃ before c after, cs = before ++ c :: after ∧ ∃ path ∈ paths ++ before.map (·.path),
        ∃ p bound name, err = .expression (.nameClash p bound name) ∧
          (table path).find? p = some bound ∧ (table c.path).find? p = some name ∧
          bound ≠ name := by
  induction cs with
  | nil =>
      intro e paths err _ _ hjoin
      cases hjoin
  | cons c cs ih =>
      intro e paths err h haccepts hjoin
      obtain ⟨f, halone, hlater⟩ := haccepts
      rw [joinAll_cons halone] at hjoin
      rcases bind_eq_error.mp hjoin with hand | ⟨e₁, hand, hrest⟩
      · obtain ⟨t, rfl, -⟩ := (∅ : Builder).add_eq_ok_of_alone halone
        obtain ⟨p, bound, name, herr, hbound, hname, hne⟩ := clash_of_and
          (agrees_fragment_values t c.path ∅ fun q hq => List.mem_append_right _ hq) hand
        obtain ⟨path, hpath, hbound⟩ := (h p bound).mp hbound
        exact ⟨[], c, cs, rfl, path, by simpa using hpath, p, bound, name, herr, hbound, hname, hne⟩
      · obtain ⟨before, c', after, rfl, path, hpath, hclash⟩ :=
          ih (h.and halone hand) (hlater _ hand) hrest
        refine ⟨c :: before, c', after, rfl, path, ?_, hclash⟩
        simpa [List.append_assoc] using hpath

/-- **Fragments that compile in turn can be joined just when every two of their paths can be.**
No value and no operator is in the way; where joining fails, the error names a placeholder that the
fragment in question and one before it have for different names. -/
theorem joinAll_eq_ok_iff_joinable {reserved : List String} {cs : List Condition}
    (h : AcceptsInTurn reserved ∅ cs) :
    ((∃ e, joinAll reserved ∅ cs = .ok e) ↔ cs.Pairwise fun c c' => Joinable c.path c'.path) ∧
      ∀ err, joinAll reserved ∅ cs = .error err →
        ∃ before c after, cs = before ++ c :: after ∧ ∃ c' ∈ before, ∃ p bound name,
          err = .expression (.nameClash p bound name) ∧
          (table c'.path).find? p = some bound ∧ (table c.path).find? p = some name ∧
          bound ≠ name := by
  refine ⟨(bindsPaths_empty.exists_joinAll_iff cs h).trans (by simp), fun err hjoin => ?_⟩
  obtain ⟨before, c, after, hcs, path, hpath, hclash⟩ :=
    bindsPaths_empty.clash_of_joinAll cs h hjoin
  obtain ⟨c', hc', rfl⟩ : ∃ c' ∈ before, c'.path = path := by simpa using hpath
  exact ⟨before, c, after, hcs, c', hc', hclash⟩

/-- Two conditions on names that clean to the same word: each compiles, and they cannot be joined. -/
theorem joinAll_fails_for_alike_names :
    let cs : List Condition := [
      { path := "a-b", operator := .compare .eq, value := some (.ofInt 1) },
      { path := "ab", operator := .compare .eq, value := some (.ofInt 2) }]
    AcceptsInTurn [] ∅ cs ∧
      joinAll [] ∅ cs = .error (.expression (.nameClash "#ab" "a-b" "ab")) := by
  exact ⟨acceptsInTurn_of_isOk _ (by decide +kernel), by decide +kernel⟩

/-- Conditions on names that are told apart by their words, whatever is said of them. -/
theorem joinAll_eq_ok_iff_joinable_apart :
    let cs : List Condition := [
      { path := "a.b-c", operator := .between, value := some (.ofInt 1), value2 := some (.ofInt 2) },
      { path := "b-c", operator := .oneOf, value := some (.list [Value.text "x", Value.text "y"]) },
      { path := "a.d", operator := .call .attributeExists, value := some (.bool false) }]
    AcceptsInTurn [":a"] ∅ cs ∧ (cs.Pairwise fun c c' => Joinable c.path c'.path) ∧
      ∃ e, joinAll [":a"] ∅ cs = .ok e := by
  intro cs
  have haccepts : AcceptsInTurn [":a"] ∅ cs := acceptsInTurn_of_isOk _ (by decide +kernel)
  have hjoinable : cs.Pairwise fun c c' => Joinable c.path c'.path := by
    refine List.Pairwise.imp (fun h => joinable_of_clean h) ?_
    decide +kernel
  exact ⟨haccepts, hjoinable, (joinAll_eq_ok_iff_joinable haccepts).1.mpr hjoinable⟩

end Expression

end ItemStore
