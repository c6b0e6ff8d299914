/-
Joining by AND is a partial commutative monoid.

Two expressions can be joined if their tables agree where both bind a placeholder.  Agreeing is
symmetric, and a union agrees with a third table just when both of its parts do; so whether
expressions can be joined is a matter of every two of them, and neither the grouping nor the order
has a say in it.  The order has one only in the text, where the statements stand side by side.

A table is merged entry by entry, and the first clash ends the merge.  That the entries come in the
order of their keys is not used: in whatever order they come, the same tables are merged to the same
table (`mergeWith_eq_ok_iff`), and at most another of several clashes is the one that is reported.
-/
import ItemStore.Proofs.Dict
import ItemStore.Proofs.Except

namespace ItemStore

/-! ### Unions -/

namespace Entries

variable {α : Type}

@[simp] theorem union_empty (d : Dict α) : d.union ∅ = d := rfl

@[simp] theorem empty_union (d : Dict α) : union ∅ d = d := by
  refine ext fun k => ?_
  rw [find?_union]
  exact Option.or_none

theorem union_assoc (d e f : Dict α) : (d.union e).union f = d.union (e.union f) := by
  refine ext fun k => ?_
  simp only [find?_union, Option.or_assoc]

end Entries

namespace Expression

section Tables

variable {α : Type} {d d' d'' : Dict α}

/-- The same key is bound to the same thing. -/
def Agrees (d d' : Dict α) : Prop :=
  ∀ k a bound, d'.find? k = some a → d.find? k = some bound → bound = a

theorem Agrees.symm (h : Agrees d d') : Agrees d' d :=
  fun k a bound hnew hold => (h k bound a hold hnew).symm

theorem agrees_empty (d : Dict α) : Agrees d ∅ :=
  fun _ _ _ hnew _ => nomatch hnew

theorem not_agrees_iff : ¬Agrees d d' ↔
    ∃ k a b, d.find? k = some a ∧ d'.find? k = some b ∧ a ≠ b := by
  constructor
  · intro h
    apply Classical.byContradiction
    intro hnone
    refine h fun k b a hnew hold => ?_
    apply Classical.byContradiction
    intro hne
    exact hnone ⟨k, a, b, hold, hnew, hne⟩
  · rintro ⟨k, a, b, hold, hnew, hne⟩ h
    exact hne (h k b a hnew hold)

/-- The union of tables that agree binds what either of them binds. -/
theorem find?_union_iff (h : Agrees d d') {k : String} {a : α} :
    (d.union d').find? k = some a ↔ d.find? k = some a ∨ d'.find? k = some a := by
  rw [Entries.find?_union, Option.or_eq_some_iff]
  constructor
  · rintro (hnew | ⟨-, hold⟩)
    · exact Or.inr hnew
    · exact Or.inl hold
  · rintro (hold | hnew)
    · cases hfind : d'.find? k with
      | none => exact Or.inr ⟨rfl, hold⟩
      | some b => exact Or.inl (congrArg some (h k b a hfind hold).symm)
    · exact Or.inl hnew

/-- **A union agrees with what both of its parts agree with.** -/
theorem agrees_union_left (h : Agrees d d') :
    Agrees (d.union d') d'' ↔ Agrees d d'' ∧ Agrees d' d'' := by
  constructor
  · intro hunion
    exact ⟨fun k a bound hnew hold => hunion k a bound hnew ((find?_union_iff h).mpr (Or.inl hold)),
      fun k a bound hnew hold => hunion k a bound hnew ((find?_union_iff h).mpr (Or.inr hold))⟩
  · rintro ⟨hleft, hright⟩ k a bound hnew hunion
    rcases (find?_union_iff h).mp hunion with hold | hold
    · exact hleft k a bound hnew hold
    · exact hright k a bound hnew hold

/-- Tables that agree have one union. -/
theorem union_comm (h : Agrees d d') : d.union d' = d'.union d := by
  refine Entries.ext fun k => Option.ext fun a => ?_
  rw [find?_union_iff h, find?_union_iff h.symm, or_comm]

theorem agrees_of_mergeWith [DecidableEq α] {clash : String → α → α → Error}
    {pairs : List (String × α)} (perm : pairs.Perm d'.toList)
    (h : mergeWith clash pairs d = .ok d'') : Agrees d d' := by
  intro k a bound hnew hold
  have hmem : (k, a) ∈ pairs := perm.mem_iff.mpr ((Entries.mem_toList_iff d').mpr hnew)
  have ha := (find?_of_mergeWith h).mpr (Or.inl hmem)
  rw [(find?_of_mergeWith h).mpr (Or.inr hold)] at ha
  exact Option.some.inj ha

/-- **A merge succeeds just when the tables agree**, in whatever order the entries are taken. -/
theorem mergeWith_eq_ok_iff [DecidableEq α] {clash : String → α → α → Error}
    {pairs : List (String × α)} (perm : pairs.Perm d'.toList) {r : Dict α} :
    mergeWith clash pairs d = .ok r ↔ Agrees d d' ∧ r = d.union d' := by
  constructor
  · intro h
    have hagrees := agrees_of_mergeWith perm h
    rw [mergeWith_perm perm hagrees] at h
    exact ⟨hagrees, (Except.ok.inj h).symm⟩
  · rintro ⟨hagrees, rfl⟩
    exact mergeWith_perm perm hagrees

/-- A merge that fails names a key which the two tables bind to different things. -/
theorem clash_of_mergeWith_perm [DecidableEq α] {clash : String → α → α → Error}
    {pairs : List (String × α)} (perm : pairs.Perm d'.toList) {err : Error}
    (h : mergeWith clash pairs d = .error err) : ∃ k bound a, err = clash k bound a ∧
      d.find? k = some bound ∧ d'.find? k = some a ∧ bound ≠ a := by
  have hpairs : Entries.Agree pairs := fun k a b ha hb =>
    Entries.agree_toList d' k a b (perm.mem_iff.mp ha) (perm.mem_iff.mp hb)
  obtain ⟨k, bound, a, herr, hnew, hbound, hne⟩ := clash_of_mergeWith hpairs h
  exact ⟨k, bound, a, herr, hbound, (Entries.mem_toList_iff d').mp (perm.mem_iff.mp hnew), hne⟩

end Tables

/-! ### Statements -/

@[simp] theorem joinStatements_empty_left (s : String) : joinStatements "" s = s := by
  simp [joinStatements]

@[simp] theorem joinStatements_empty_right (s : String) : joinStatements s "" = s := by
  rw [joinStatements]
  split
  · simp_all
  · simp

/-- Two statements are joined by AND, and an empty one is left out. -/
theorem joinStatements_eq_intercalate (s t : String) :
    joinStatements s t = " AND ".intercalate ([s, t].filter fun u => !u.isEmpty) := by
  by_cases hs : s = ""
  · subst hs
    by_cases ht : t = ""
    · subst ht
      rfl
    · simp [ht]
  · by_cases ht : t = ""
    · subst ht
      simp [hs]
    · simp [joinStatements, hs, ht]

theorem joinStatements_assoc (s t u : String) :
    joinStatements (joinStatements s t) u = joinStatements s (joinStatements t u) := by
  by_cases hs : s = ""
  · subst hs
    simp
  by_cases ht : t = ""
  · subst ht
    simp
  by_cases hu : u = ""
  · subst hu
    simp
  simp [joinStatements, hs, ht, hu, String.append_assoc]

/-! ### Two expressions -/

variable {e f g r : Expression} {err : Error} {names : List (String × String)}
  {values : List (String × Value)}

/-- No placeholder stands for different things in the two expressions. -/
structure Compatible (e f : Expression) : Prop where
  names : Agrees e.names f.names
  values : Agrees e.values f.values

/-- Both expressions at once, where nothing clashes. -/
def both (e f : Expression) : Expression where
  statement := joinStatements e.statement f.statement
  names := e.names.union f.names
  values := e.values.union f.values

/-- A placeholder that stands for different things, and the error that says so. -/
inductive Clash (e f : Expression) : Error → Prop
  | name {p bound name : String} (left : e.names.find? p = some bound)
      (right : f.names.find? p = some name) (ne : bound ≠ name) :
      Clash e f (.expression (.nameClash p bound name))
  | value {p : String} {bound v : Value} (left : e.values.find? p = some bound)
      (right : f.values.find? p = some v) (ne : bound ≠ v) :
      Clash e f (.expression (.valueClash p))

/-- `and` with the entries of the second expression taken in the order given. -/
def andInOrder (names : List (String × String)) (values : List (String × Value))
    (e f : Expression) : Except Error Expression := do
  let names ← mergeNames e.names names
  let values ← mergeValues e.values values
  return { statement := joinStatements e.statement f.statement, names, values }

/-- `and` takes them in the order of their keys. -/
theorem andInOrder_toList (e f : Expression) :
    andInOrder f.names.toList f.values.toList e f = e.and f := rfl

/-- **Expressions are joined just when they are compatible**, whatever the order. -/
theorem andInOrder_eq_ok_iff (hnames : names.Perm f.names.toList)
    (hvalues : values.Perm f.values.toList) :
    andInOrder names values e f = .ok r ↔ Compatible e f ∧ r = e.both f := by
  rw [andInOrder, bind_eq_ok]
  constructor
  · rintro ⟨names', hmerged, h⟩
    obtain ⟨values', hmerged', h⟩ := bind_eq_ok.mp h
    obtain ⟨hagrees, rfl⟩ := (mergeWith_eq_ok_iff hnames).mp hmerged
    obtain ⟨hagrees', rfl⟩ := (mergeWith_eq_ok_iff hvalues).mp hmerged'
    exact ⟨⟨hagrees, hagrees'⟩, (Except.ok.inj h).symm⟩
  · rintro ⟨hcompatible, rfl⟩
    refine ⟨_, (mergeWith_eq_ok_iff hnames).mpr ⟨hcompatible.names, rfl⟩, bind_eq_ok.mpr ?_⟩
    exact ⟨_, (mergeWith_eq_ok_iff hvalues).mpr ⟨hcompatible.values, rfl⟩, rfl⟩

theorem and_eq_ok_iff : e.and f = .ok r ↔ Compatible e f ∧ r = e.both f := by
  rw [← andInOrder_toList]
  exact andInOrder_eq_ok_iff (List.Perm.refl _) (List.Perm.refl _)

theorem exists_and_eq_ok_iff : (∃ r, e.and f = .ok r) ↔ Compatible e f := by
  simp [and_eq_ok_iff]

/-- What fails to be joined has a clash, and the error names it. -/
theorem clash_of_andInOrder (hnames : names.Perm f.names.toList)
    (hvalues : values.Perm f.values.toList) (h : andInOrder names values e f = .error err) :
    Clash e f err := by
  rcases bind_eq_error.mp h with hname | ⟨names', -, h⟩
  · obtain ⟨p, bound, name, rfl, hleft, hright, hne⟩ := clash_of_mergeWith_perm hnames hname
    exact .name hleft hright hne
  · rcases bind_eq_error.mp h with hvalue | ⟨values', -, h⟩
    · obtain ⟨p, bound, v, rfl, hleft, hright, hne⟩ := clash_of_mergeWith_perm hvalues hvalue
      exact .value hleft hright hne
    · cases h

theorem clash_of_error (h : e.and f = .error err) : Clash e f err := by
  rw [← andInOrder_toList] at h
  exact clash_of_andInOrder (List.Perm.refl _) (List.Perm.refl _) h

theorem not_compatible_iff : ¬Compatible e f ↔ ∃ err, Clash e f err := by
  constructor
  · intro h
    by_cases hnames : Agrees e.names f.names
    · have hvalues : ¬Agrees e.values f.values := fun hvalues => h ⟨hnames, hvalues⟩
      obtain ⟨p, bound, v, hleft, hright, hne⟩ := not_agrees_iff.mp hvalues
      exact ⟨_, .value hleft hright hne⟩
    · obtain ⟨p, bound, name, hleft, hright, hne⟩ := not_agrees_iff.mp hnames
      exact ⟨_, .name hleft hright hne⟩
  · rintro ⟨err, hclash⟩ h
    cases hclash with
    | name hleft hright hne => exact hne (h.names _ _ _ hright hleft)
    | value hleft hright hne => exact hne (h.values _ _ _ hright hleft)

theorem andInOrder_eq_error_iff (hnames : names.Perm f.names.toList)
    (hvalues : values.Perm f.values.toList) :
    (∃ err, andInOrder names values e f = .error err) ↔ ∃ err, Clash e f err := by
  constructor
  · rintro ⟨err, h⟩
    exact ⟨err, clash_of_andInOrder hnames hvalues h⟩
  · intro hclash
    cases h : andInOrder names values e f with
    | error err => exact ⟨err, rfl⟩
    | ok r =>
        exact absurd ((andInOrder_eq_ok_iff hnames hvalues).mp h).1 (not_compatible_iff.mpr hclash)

/-! ### The laws -/

theorem Compatible.symm (h : Compatible e f) : Compatible f e :=
  ⟨h.names.symm, h.values.symm⟩

theorem compatible_empty (e : Expression) : Compatible e ∅ :=
  ⟨agrees_empty _, agrees_empty _⟩

theorem compatible_both_left (h : Compatible e f) :
    Compatible (e.both f) g ↔ Compatible e g ∧ Compatible f g := by
  constructor
  · rintro ⟨hnames, hvalues⟩
    obtain ⟨hn, hn'⟩ := (agrees_union_left h.names).mp hnames
    obtain ⟨hv, hv'⟩ := (agrees_union_left h.values).mp hvalues
    exact ⟨⟨hn, hv⟩, ⟨hn', hv'⟩⟩
  · rintro ⟨he, hf⟩
    exact ⟨(agrees_union_left h.names).mpr ⟨he.names, hf.names⟩,
      (agrees_union_left h.values).mpr ⟨he.values, hf.values⟩⟩

theorem compatible_both_right (h : Compatible f g) :
    Compatible e (f.both g) ↔ Compatible e f ∧ Compatible e g := by
  constructor
  · intro hboth
    obtain ⟨hf, hg⟩ := (compatible_both_left h).mp hboth.symm
    exact ⟨hf.symm, hg.symm⟩
  · rintro ⟨hf, hg⟩
    exact ((compatible_both_left h).mpr ⟨hf.symm, hg.symm⟩).symm

theorem both_assoc (e f g : Expression) : (e.both f).both g = e.both (f.both g) := by
  simp only [both, joinStatements_assoc, Entries.union_assoc]

@[simp] theorem empty_both (e : Expression) : both ∅ e = e := by
  show Expression.mk (joinStatements "" e.statement) (Entries.union ∅ e.names)
    (Entries.union ∅ e.values) = e
  rw [joinStatements_empty_left, Entries.empty_union, Entries.empty_union]

@[simp] theorem both_empty (e : Expression) : e.both ∅ = e := by
  show Expression.mk (joinStatements e.statement "") (e.names.union ∅) (e.values.union ∅) = e
  rw [joinStatements_empty_right, Entries.union_empty, Entries.union_empty]

/-- **Three expressions are joined in either grouping just when every two are compatible.** -/
theorem and_bind_and_eq_ok_iff : (e.and f >>= fun ef => ef.and g) = .ok r ↔
    Compatible e f ∧ Compatible e g ∧ Compatible f g ∧ r = (e.both f).both g := by
  rw [bind_eq_ok]
  constructor
  · rintro ⟨ef, hfirst, hsecond⟩
    obtain ⟨hef, rfl⟩ := and_eq_ok_iff.mp hfirst
    obtain ⟨hboth, rfl⟩ := and_eq_ok_iff.mp hsecond
    obtain ⟨heg, hfg⟩ := (compatible_both_left hef).mp hboth
    exact ⟨hef, heg, hfg, rfl⟩
  · rintro ⟨hef, heg, hfg, rfl⟩
    exact ⟨e.both f, and_eq_ok_iff.mpr ⟨hef, rfl⟩,
      and_eq_ok_iff.mpr ⟨(compatible_both_left hef).mpr ⟨heg, hfg⟩, rfl⟩⟩

theorem bind_and_and_eq_ok_iff : (f.and g >>= fun fg => e.and fg) = .ok r ↔
    Compatible e f ∧ Compatible e g ∧ Compatible f g ∧ r = e.both (f.both g) := by
  rw [bind_eq_ok]
  constructor
  · rintro ⟨fg, hfirst, hsecond⟩
    obtain ⟨hfg, rfl⟩ := and_eq_ok_iff.mp hfirst
    obtain ⟨hboth, rfl⟩ := and_eq_ok_iff.mp hsecond
    obtain ⟨hef, heg⟩ := (compatible_both_right hfg).mp hboth
    exact ⟨hef, heg, hfg, rfl⟩
  · rintro ⟨hef, heg, hfg, rfl⟩
    exact ⟨f.both g, and_eq_ok_iff.mpr ⟨hfg, rfl⟩,
      and_eq_ok_iff.mpr ⟨(compatible_both_right hfg).mpr ⟨hef, heg⟩, rfl⟩⟩

/-- What holds whenever expressions are joined. -/
structure JoinLaws (a b c : Expression) : Prop where
  assoc : ∀ r, (a.and b >>= fun ab => ab.and c) = .ok r ↔ (b.and c >>= fun bc => a.and bc) = .ok r
  empty_and : (∅ : Expression).and a = .ok a
  and_empty : a.and ∅ = .ok a
  comm : (∃ r, a.and b = .ok r) ↔ ∃ r, b.and a = .ok r
  tables : ∀ r r', a.and b = .ok r → b.and a = .ok r' → r.names = r'.names ∧ r.values = r'.values
  fails : (∃ err, a.and b = .error err) ↔ ∃ err, Clash a b err
  invalid : ∀ err, a.and b = .error err → Clash a b err ∧ err.code = "INVALID_EXPRESSION"
  /-- What is written is the two statements in their order, joined by AND, an empty one left
  out. -/
  statement : ∀ r, a.and b = .ok r →
    r.statement = " AND ".intercalate ([a.statement, b.statement].filter fun s => !s.isEmpty)
  names : ∀ r, a.and b = .ok r → ∀ p name,
    r.names.find? p = some name ↔ a.names.find? p = some name ∨ b.names.find? p = some name
  values : ∀ r, a.and b = .ok r → ∀ p v,
    r.values.find? p = some v ↔ a.values.find? p = some v ∨ b.values.find? p = some v
  /-- The order in which entries are taken decides at most which clash is reported. -/
  anyOrder : ∀ names values, names.Perm b.names.toList → values.Perm b.values.toList →
    (∀ r, andInOrder names values a b = .ok r ↔ a.and b = .ok r) ∧
      ∀ err, andInOrder names values a b = .error err → Clash a b err

theorem Clash.code_eq (h : Clash e f err) : err.code = "INVALID_EXPRESSION" := by
  cases h <;> rfl

/-- **Joining is a partial commutative monoid**, up to the order of the text. -/
theorem and_laws (a b c : Expression) : JoinLaws a b c where
  assoc r := by rw [and_bind_and_eq_ok_iff, bind_and_and_eq_ok_iff, both_assoc]
  empty_and := and_eq_ok_iff.mpr ⟨(compatible_empty a).symm, (empty_both a).symm⟩
  and_empty := and_eq_ok_iff.mpr ⟨compatible_empty a, (both_empty a).symm⟩
  comm := by
    rw [exists_and_eq_ok_iff, exists_and_eq_ok_iff]
    exact ⟨Compatible.symm, Compatible.symm⟩
  tables := by
    intro r r' h h'
    obtain ⟨hcompatible, rfl⟩ := and_eq_ok_iff.mp h
    obtain ⟨-, rfl⟩ := and_eq_ok_iff.mp h'
    exact ⟨union_comm hcompatible.names, union_comm hcompatible.values⟩
  fails := by
    rw [← andInOrder_toList]
    exact andInOrder_eq_error_iff (List.Perm.refl _) (List.Perm.refl _)
  invalid := by
    intro err h
    exact ⟨clash_of_error h, (clash_of_error h).code_eq⟩
  statement := by
    intro r h
    obtain ⟨-, rfl⟩ := and_eq_ok_iff.mp h
    exact joinStatements_eq_intercalate a.statement b.statement
  names := by
    intro r h p name
    obtain ⟨hcompatible, rfl⟩ := and_eq_ok_iff.mp h
    exact find?_union_iff hcompatible.names
  values := by
    intro r h p v
    obtain ⟨hcompatible, rfl⟩ := and_eq_ok_iff.mp h
    exact find?_union_iff hcompatible.values
  anyOrder := by
    intro names values hnames hvalues
    refine ⟨fun r => ?_, fun err => clash_of_andInOrder hnames hvalues⟩
    rw [andInOrder_eq_ok_iff hnames hvalues, and_eq_ok_iff]

/-- Of two clashes the one that is met first is reported. -/
example :
    let a : Expression := { names := .ofList [("#a", "a"), ("#b", "b")] }
    let b : Expression := { names := .ofList [("#a", "a-"), ("#b", "b-")] }
    a.and b = .error (.expression (.nameClash "#a" "a" "a-")) ∧
      andInOrder b.names.toList.reverse b.values.toList a b =
        .error (.expression (.nameClash "#b" "b" "b-")) := by
  decide +kernel

end Expression

end ItemStore
