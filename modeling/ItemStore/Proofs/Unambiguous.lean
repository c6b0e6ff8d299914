/-
Joined conditions can be told apart.

Two builders that build the same expression were given the same conditions, but for what
compiling rewrites: a date counts for its canonical text, and the question whether an
attribute exists for the one without a truth value (`Condition.effective`).

The statement is read from left to right by its lexemes.  What begins with `#` is the target
of a condition, and the names of its path are found in the table.  Before it stands the name
of a function, or nothing; after it stands an operator, or nothing; and what follows are
placeholders, as many as begin with `:`.  So where two statements agree, their first
conditions agree and so does what follows these (`Operator.lexemes_append_inj`), whatever
that is, as long as it does not begin with a placeholder of a value.  It begins with the AND
between conditions, and never the one inside a range, which comes after exactly one
placeholder and is counted with it.

A builder never changes what it has bound, so each of its fragments can still be read with
its last tables (`Builder.Asks`).
-/
import ItemStore.Proofs.Conjunction
import ItemStore.Proofs.Lexeme

namespace ItemStore

open Placeholder PathPlaceholders

/-! ### What a condition asks -/

namespace Condition

/-- The condition that is asked: a date, also among the candidates of a choice, becomes its
canonical text, and the question whether an attribute exists loses its truth value. -/
def effective (c : Condition) : Condition :=
  match c.operator, c.value with
  | .call .attributeExists, some (.leaf (.bool true)) => { c with value := none }
  | .call .attributeExists, some (.leaf (.bool false)) =>
      { c with operator := .call .attributeNotExists, value := none }
  | .oneOf, some (.list items) => { c with value := some (.list (items.map Value.normalized)) }
  | _, value =>
      { c with value := value.map Value.normalized, value2 := c.value2.map Value.normalized }

end Condition

namespace Test

/-- The operator a test asks with. -/
def operator : Test → Operator
  | compare c _ => .compare c
  | between .. => .between
  | oneOf .. => .oneOf
  | call f _ => .call f

/-- The condition that asks a test of a path and leaves nothing to rewrite. -/
def condition (path : String) : Test → Condition
  | compare c v => { path, operator := .compare c, value := some v }
  | between low high => { path, operator := .between, value := some low, value2 := some high }
  | oneOf v vs => { path, operator := .oneOf, value := some (.list (v :: vs)) }
  | call f v => { path, operator := .call f, value := v }

theorem length_operands_of_between {t : Test} (h : t.operator = .between) :
    t.operands.length = 2 := by
  cases t <;> simp [operator, operands] at h ⊢

/-- A test is its operator and its operands. -/
theorem eq_of_operator_of_operands {t t' : Test} (hop : t.operator = t'.operator)
    (hoperands : t.operands = t'.operands) : t = t' := by
  cases t <;> cases t' <;> simp only [operator, reduceCtorEq] at hop
  case compare.compare => simp_all [operands]
  case between.between => simp_all [operands]
  case oneOf.oneOf => simp_all [operands]
  case call.call f v f' v' =>
      cases v <;> cases v' <;> simp_all [operands]

end Test

namespace Condition

/-- A call is asked as it is, but for the question whether an attribute exists. -/
theorem effective_eq_of_ofCall {path : String} {f : Function} {value value2 : Option Value}
    {t : Test} (h : Test.ofCall f (value.map Value.normalized) value2 = .ok t) :
    effective { path, operator := .call f, value, value2 } = t.condition path := by
  by_cases hf : f = .attributeExists
  · subst hf
    -- With any other operands the call is refused.
    match value, value2 with
    | none, none => cases h; rfl
    | some (.leaf (.bool true)), none => cases h; rfl
    | some (.leaf (.bool false)), none => cases h; rfl
  · have hself : effective { path, operator := .call f, value, value2 } =
        { path, operator := .call f, value := value.map Value.normalized,
          value2 := value2.map Value.normalized } := by
      cases f <;> first | rfl | exact absurd rfl hf
    rw [hself]
    simp only [Test.ofCall, if_neg hf] at h
    split at h
    · cases h
    · cases value2 with
      | none => cases h; rfl
      | some w => cases h

/-- A choice is asked of its candidates, the dates among them by their texts. -/
theorem effective_eq_of_ofChoice {path : String} {value value2 : Option Value} {t : Test}
    (h : Test.ofChoice value value2 = .ok t) :
    effective { path, operator := .oneOf, value, value2 } = t.condition path := by
  -- Whatever is not a list that has members is refused.
  match value, value2 with
  | some (.list (v :: vs)), none => cases h; rfl

/-- **What is asked is the effective condition.** -/
theorem effective_eq {c : Condition} {t : Test} (h : c.test = .ok t) :
    c.effective = t.condition c.path := by
  obtain ⟨path, op, value, value2⟩ := c
  rw [test] at h
  cases op with
  | compare op =>
      cases value with
      | none => cases h
      | some v =>
          cases value2 with
          | none => cases h; rfl
          | some w => cases h
  | between =>
      cases value with
      | none => cases h
      | some v =>
          cases value2 with
          | none => cases h
          | some w => cases h; rfl
  | oneOf => exact effective_eq_of_ofChoice h
  | call f => exact effective_eq_of_ofCall h

end Condition

/-! ### The lexemes of a condition -/

namespace Operator

/-- What stands before the target. -/
def lead (op : Operator) : List String :=
  if op.isFunction then Text.lexemes op.text else []

/-- The operands as the operator puts them side by side. -/
def spread (op : Operator) (ps : List String) : List String :=
  match op with
  | between => ps.intersperse "AND"
  | _ => ps

/-- What stands after the target. -/
def tail (op : Operator) (ps : List String) : List String :=
  if op.isFunction then ps else op.text :: op.spread ps

/-- The lexemes of a condition with this operator. -/
def lexemes (op : Operator) (target : String) (ps : List String) : List String :=
  op.lead ++ target :: op.tail ps

theorem mem_all (op : Operator) : op ∈ all := by
  cases op with
  | compare c => cases c <;> decide
  | between => decide
  | oneOf => decide
  | call f => cases f <;> decide

instance {p : Operator → Prop} [DecidablePred p] : Decidable (∀ op, p op) :=
  decidable_of_iff (∀ op ∈ all, p op) ⟨fun h op => h op op.mem_all, fun h op _ => h op⟩

/-- Operators that are written with the same lexemes are the same. -/
theorem lexemes_text_injective : Function.Injective fun op : Operator => Text.lexemes op.text := by
  have hall : ∀ op op' : Operator, Text.lexemes op.text = Text.lexemes op'.text → op = op' := by
    decide +kernel
  exact fun op op' h => hall op op' h

theorem lexemes_text_ne_nil : ∀ op : Operator, Text.lexemes op.text ≠ [] := by
  decide +kernel

/-- Nothing in the name of an operator looks like the target of a condition. -/
theorem not_begins_of_mem_lexemes_text :
    ∀ op : Operator, ∀ s ∈ Text.lexemes op.text, ¬Text.Begins '#' s := by
  decide +kernel

end Operator

namespace Test

/-- **The lexemes of the text of a condition.** -/
theorem lexemes_statement (t : Test) {target : String} {ps : List String}
    (htarget : Text.lexemes target = [target]) (hps : ∀ p ∈ ps, Text.lexemes p = [p])
    (hlength : ps.length = t.operands.length) :
    Text.lexemes (t.statement target ps) = t.operator.lexemes target ps := by
  have hcomma : Text.Divides ", ".toList := Text.divides_of_ends (by decide)
  have hmark : Text.Divides ")".toList := Text.divides_of_ends (by decide)
  have hclose : ∀ s, Text.lexemes (s ++ ")") = Text.lexemes s := by
    intro s
    have := Text.lexemes_append hmark s ""
    simpa [show Text.lexemes ")" = [] by decide, show Text.lexemes "" = [] by decide] using this
  cases t with
  | compare c v =>
      have hop : Text.Divides (" " ++ c.text ++ " ").toList :=
        Text.divides_of_ends (by cases c <;> decide)
      have hmiddle : Text.lexemes (" " ++ c.text ++ " ") = [c.text] := by cases c <;> decide
      have htext : statement target ps (compare c v) =
          target ++ (" " ++ c.text ++ " ") ++ ", ".intercalate ps := by
        simp [statement, String.append_assoc]
      rw [htext, Text.lexemes_append hop, htarget, hmiddle,
        Text.lexemes_intercalate_self hcomma (by decide) hps]
      rfl
  | between low high =>
      obtain ⟨p, q, rfl⟩ := List.length_eq_two.mp hlength
      rw [statement, String.intercalate_cons_cons, String.intercalate_singleton,
        Text.lexemes_append (Text.divides_of_ends (by decide)),
        Text.lexemes_append (Text.divides_of_ends (by decide)), htarget, hps p (by simp),
        hps q (by simp)]
      rfl
  | oneOf v vs =>
      rw [statement, hclose, Text.lexemes_append (Text.divides_of_ends (by decide)), htarget,
        Text.lexemes_intercalate_self hcomma (by decide) hps]
      rfl
  | call f v =>
      have hall : ∀ p ∈ target :: ps, Text.lexemes p = [p] := by
        simpa using ⟨htarget, hps⟩
      rw [statement, hclose, Text.lexemes_append (Text.divides_of_ends (by decide)),
        Text.lexemes_intercalate_self hcomma (by decide) hall]
      rfl

end Test

/-! ### Reading a condition off the front -/

/-- What a run of texts of one kind ends before determines the run. -/
theorem append_inj_of_stop {p : String → Prop} {as as' rest rest' : List String}
    (h : ∀ a ∈ as, p a) (h' : ∀ a ∈ as', p a) (hrest : ∀ a ∈ rest.head?, ¬p a)
    (hrest' : ∀ a ∈ rest'.head?, ¬p a) (he : as ++ rest = as' ++ rest') :
    as = as' ∧ rest = rest' := by
  have hstops : ∀ {bs mid rest : List String}, (∀ a ∈ bs ++ mid, p a) →
      (∀ a ∈ (mid ++ rest).head?, ¬p a) → mid = [] := by
    intro bs mid rest hrun hstop
    cases mid with
    | nil => rfl
    | cons a mid => exact absurd (hrun a (by simp)) (hstop a (by simp))
  rcases List.append_eq_append_iff.mp he with ⟨mid, rfl, rfl⟩ | ⟨mid, rfl, rfl⟩
  · obtain rfl := hstops h' hrest
    exact ⟨(List.append_nil _).symm, rfl⟩
  · obtain rfl := hstops h hrest'
    exact ⟨List.append_nil _, rfl⟩

namespace Operator

variable {op op' : Operator} {target target' : String} {ps ps' rest rest' : List String}

theorem not_begins_of_mem_lead {s : String} (h : s ∈ op.lead) : ¬Text.Begins '#' s := by
  rw [lead] at h
  split at h
  · exact op.not_begins_of_mem_lexemes_text s h
  · cases h

/-- An operator is seen before the target or right after it. -/
theorem eq_of_lead_of_tail (hlead : op.lead = op'.lead)
    (htail : op.tail ps ++ rest = op'.tail ps' ++ rest') : op = op' := by
  rw [lead, lead] at hlead
  rw [tail, tail] at htail
  by_cases hf : op.isFunction = true <;> by_cases hf' : op'.isFunction = true
  · rw [if_pos hf, if_pos hf'] at hlead
    exact lexemes_text_injective hlead
  · rw [if_pos hf, if_neg hf'] at hlead
    exact absurd hlead op.lexemes_text_ne_nil
  · rw [if_neg hf, if_pos hf'] at hlead
    exact absurd hlead.symm op'.lexemes_text_ne_nil
  · rw [if_neg hf, if_neg hf'] at htail
    exact lexemes_text_injective (congrArg Text.lexemes (List.cons.inj htail).1)

/-- **A condition is read off the front of a statement in one way**, if what comes after it
does not begin with a placeholder of a value. -/
theorem lexemes_append_inj (htarget : Text.Begins '#' target) (htarget' : Text.Begins '#' target')
    (hps : ∀ p ∈ ps, Text.Begins ':' p) (hps' : ∀ p ∈ ps', Text.Begins ':' p)
    (hlength : op = .between → ps.length = 2) (hlength' : op' = .between → ps'.length = 2)
    (hrest : ∀ s ∈ rest.head?, ¬Text.Begins ':' s)
    (hrest' : ∀ s ∈ rest'.head?, ¬Text.Begins ':' s)
    (he : op.lexemes target ps ++ rest = op'.lexemes target' ps' ++ rest') :
    op = op' ∧ target = target' ∧ ps = ps' ∧ rest = rest' := by
  rw [lexemes, lexemes, List.append_assoc, List.append_assoc] at he
  obtain ⟨hlead, hafter⟩ := append_inj_of_stop (fun _ => not_begins_of_mem_lead)
    (fun _ => not_begins_of_mem_lead) (by simpa using htarget) (by simpa using htarget') he
  obtain ⟨rfl, htail⟩ := List.cons.inj hafter
  obtain rfl := eq_of_lead_of_tail hlead htail
  have hspan : ps ++ rest = ps' ++ rest' → ps = ps' ∧ rest = rest' :=
    append_inj_of_stop hps hps' hrest hrest'
  refine ⟨rfl, rfl, ?_⟩
  cases op with
  | compare c => exact hspan (List.cons.inj htail).2
  | between =>
      obtain ⟨p, q, rfl⟩ := List.length_eq_two.mp (hlength rfl)
      obtain ⟨p', q', rfl⟩ := List.length_eq_two.mp (hlength' rfl)
      simpa [tail, spread, isFunction, and_assoc] using htail
  | oneOf => exact hspan (List.cons.inj htail).2
  | call f => exact hspan htail

end Operator

/-! ### Fragments and tables -/

/-- The fragment asks the condition, its placeholders standing for what the tables say. -/
inductive Condition.AskedBy (names : Dict String) (values : Dict Value) (c : Condition) :
    String → Prop
  | intro {t : Test} {qs ps : List String} (test : c.test = .ok t)
      (shapedNames : ∀ q ∈ qs, Shaped '#' q) (shapedValues : ∀ p ∈ ps, Shaped ':' p)
      (path : qs.map names.find? = (pathSegments c.path).map some)
      (operands : ps.map values.find? = t.operands.map some) :
      AskedBy names values c (t.statement (".".intercalate qs) ps)

namespace Condition.AskedBy

variable {names : Dict String} {values : Dict Value} {c c' : Condition} {s s' : String}

/-- What the lexemes of a fragment say: its operator, its target and its placeholders, and
what is asked of the target and of these is what the condition asks. -/
theorem lexemes_eq (h : AskedBy names values c s) : ∃ (t : Test) (target : String)
    (ps : List String), c.test = .ok t ∧ Text.lexemes s = t.operator.lexemes target ps ∧
      Text.Begins '#' target ∧ (∀ p ∈ ps, Text.Begins ':' p) ∧
      (t.operator = .between → ps.length = 2) ∧
      (pathSegments target).map names.find? = (pathSegments c.path).map some ∧
      ps.map values.find? = t.operands.map some := by
  obtain @⟨t, qs, ps, htest, hqs, hps, hpath, hoperands⟩ := h
  have hne : qs ≠ [] := by
    rintro rfl
    exact pathSegments_ne_nil c.path (List.map_eq_nil_iff.mp hpath.symm)
  have hlength : ps.length = t.operands.length := by
    simpa using congrArg List.length hoperands
  have htarget : pathSegments (".".intercalate qs) = qs :=
    pathSegments_intercalate hne fun q hq => point_not_mem_of_shaped (hqs q hq)
  refine ⟨t, ".".intercalate qs, ps, htest, ?_, ?_, ?_, ?_, htarget.symm ▸ hpath, hoperands⟩
  · exact t.lexemes_statement (Text.lexemes_of_path (by decide) hne hqs)
      (fun p hp => Text.lexemes_of_shaped (by decide) (hps p hp)) hlength
  · exact Text.begins_intercalate hne fun q hq => Text.begins_of_shaped (hqs q hq)
  · exact fun p hp => Text.begins_of_shaped (hps p hp)
  · exact fun hbetween => hlength.trans (Test.length_operands_of_between hbetween)

/-- **What stands at the front of a statement asks one condition only.** -/
theorem effective_inj {rest rest' : List String} (h : AskedBy names values c s)
    (h' : AskedBy names values c' s') (hrest : ∀ s ∈ rest.head?, ¬Text.Begins ':' s)
    (hrest' : ∀ s ∈ rest'.head?, ¬Text.Begins ':' s)
    (he : Text.lexemes s ++ rest = Text.lexemes s' ++ rest') :
    c.effective = c'.effective ∧ rest = rest' := by
  obtain ⟨t, target, ps, htest, hs, htarget, hps, hlength, hpath, hoperands⟩ := h.lexemes_eq
  obtain ⟨t', target', ps', htest', hs', htarget', hps', hlength', hpath', hoperands'⟩ :=
    h'.lexemes_eq
  rw [hs, hs'] at he
  obtain ⟨hop, rfl, rfl, hrests⟩ := Operator.lexemes_append_inj htarget htarget' hps hps'
    hlength hlength' hrest hrest' he
  -- The tables give the same names and the same operands for the same placeholders.
  have hsome : ∀ (α : Type), Function.Injective (List.map (some : α → Option α)) :=
    fun _ => List.map_injective_iff.mpr fun _ _ => Option.some.inj
  have hsegments := hsome String (hpath.symm.trans hpath')
  have ht : t = t' := Test.eq_of_operator_of_operands hop
    (hsome Value (hoperands.symm.trans hoperands'))
  refine ⟨?_, hrests⟩
  rw [effective_eq htest, effective_eq htest', ht, pathSegments_injective hsegments]

/-- A fragment still asks its condition when more is bound. -/
theorem mono {names' : Dict String} {values' : Dict Value}
    (hnames : ∀ p a, names.find? p = some a → names'.find? p = some a)
    (hvalues : ∀ q v, values.find? q = some v → values'.find? q = some v)
    (h : AskedBy names values c s) : AskedBy names' values' c s := by
  obtain ⟨htest, hqs, hps, hpath, hoperands⟩ := h
  exact .intro htest hqs hps (Entries.map_find?_mono hnames hpath)
    (Entries.map_find?_mono hvalues hoperands)

end Condition.AskedBy

namespace Builder

variable {b b' : Builder} {c : Condition} {cs : List Condition}

/-- The fragments of a builder ask these conditions, one after another. -/
def Asks (b : Builder) (cs : List Condition) : Prop :=
  List.Forall₂ (Condition.AskedBy b.names b.values) cs b.fragments

theorem asks_empty (reserved : List String) : ((∅ : Builder).reserve reserved).Asks [] :=
  List.Forall₂.nil

/-- **One condition more is asked by one fragment more.** -/
theorem Asks.add (h : b.Asks cs) (hadd : b.add c = .ok b') : b'.Asks (cs ++ [c]) := by
  obtain ⟨t, ht, rfl⟩ := eq_push_of_condition hadd
  have hold : List.Forall₂ (Condition.AskedBy (b.push c.path t).names (b.push c.path t).values)
      cs b.fragments :=
    h.imp fun c' s => Condition.AskedBy.mono (fun _ _ => find?_names_push c.path t)
      fun _ _ => find?_values_push c.path t
  refine List.rel_append hold (List.Forall₂.cons ?_ List.Forall₂.nil)
  refine .intro ht (shaped_assign _ _) (shaped_forValues _ _ _) (map_find?_assign _ _) ?_
  exact map_find?_forValues _ _ _ _

theorem Asks.addAll (cs : List Condition) :
    ∀ {b b' : Builder} {ds : List Condition}, b.Asks ds → b.addAll cs = .ok b' →
      b'.Asks (ds ++ cs) := by
  induction cs with
  | nil =>
      intro b b' ds h hadds
      cases hadds
      rwa [List.append_nil]
  | cons c cs ih =>
      intro b b' ds h hadds
      rw [Builder.addAll, List.foldlM_cons] at hadds
      obtain ⟨b₁, hadd, hrest⟩ := bind_eq_ok.mp hadds
      rw [List.append_cons]
      exact ih (h.add hadd) hrest

/-- **Statements read with the same tables were asked by the same conditions.** -/
theorem map_effective_eq {names : Dict String} {values : Dict Value} {cs : List Condition}
    {fragments : List String} (h : List.Forall₂ (Condition.AskedBy names values) cs fragments) :
    ∀ {cs' : List Condition} {fragments' : List String},
      List.Forall₂ (Condition.AskedBy names values) cs' fragments' →
      (fragments.flatMap fun s => "AND" :: Text.lexemes s) =
        (fragments'.flatMap fun s => "AND" :: Text.lexemes s) →
      cs.map Condition.effective = cs'.map Condition.effective := by
  have hstop : ∀ (fragments : List String), ∀ s ∈
      (fragments.flatMap fun s => "AND" :: Text.lexemes s).head?, ¬Text.Begins ':' s := by
    intro fragments s hs
    cases fragments with
    | nil => cases hs
    | cons fragment fragments =>
        cases hs
        decide
  induction h with
  | nil =>
      intro cs' fragments' h' he
      cases h' with
      | nil => rfl
      | cons _ _ => cases he
  | cons hasked _ ih =>
      intro cs' fragments' h' he
      cases h' with
      | nil => cases he
      | cons hasked' hrest' =>
          rw [List.flatMap_cons, List.flatMap_cons, List.cons_append, List.cons_append] at he
          obtain ⟨heffective, hrests⟩ :=
            hasked.effective_inj hasked' (hstop _) (hstop _) (List.cons.inj he).2
          rw [List.map_cons, List.map_cons, heffective, ih hrest' hrests]

theorem build_eq_none_iff : b.build = none ↔ b.fragments = [] := by
  rw [build]
  split <;> simp_all

/-- **Joined conditions can be told apart.**  Builders that build the same, whatever was
reserved for them, were given as many conditions, and these ask the same in the same order:
path, operator and operands of each are the same but for what compiling rewrites. -/
theorem effective_of_build_eq {reserved reserved' : List String} {cs cs' : List Condition}
    {b b' : Builder} (h : ((∅ : Builder).reserve reserved).addAll cs = .ok b)
    (h' : ((∅ : Builder).reserve reserved').addAll cs' = .ok b') (hbuild : b.build = b'.build) :
    cs.map Condition.effective = cs'.map Condition.effective := by
  have hasks : b.Asks cs := (asks_empty reserved).addAll cs h
  have hasks' : b'.Asks cs' := (asks_empty reserved').addAll cs' h'
  have hboth : b.fragments = [] ↔ b'.fragments = [] := by
    rw [← build_eq_none_iff, ← build_eq_none_iff, hbuild]
  by_cases hnil : b.fragments = []
  · rw [Asks, hnil, List.forall₂_nil_right_iff] at hasks
    rw [Asks, hboth.mp hnil, List.forall₂_nil_right_iff] at hasks'
    rw [hasks, hasks']
  · have hne : b.fragments ≠ [] := hnil
    have hne' : b'.fragments ≠ [] := mt hboth.mpr hnil
    rw [build_of_fragments hne, build_of_fragments hne', Option.some.injEq, joined, joined,
      Expression.mk.injEq] at hbuild
    obtain ⟨hstatement, hnames, hvalues⟩ := hbuild
    rw [Asks, ← hnames, ← hvalues] at hasks'
    refine map_effective_eq hasks hasks' ?_
    have hand : Text.lexemes " AND " = ["AND"] := by decide
    have hdivides : Text.Divides " AND ".toList := Text.divides_of_ends (by decide)
    have hlexemes := Text.lexemes_intercalate hdivides hne
    rw [hstatement, Text.lexemes_intercalate hdivides hne', hand] at hlexemes
    exact hlexemes.symm

/-- Dates and their texts, and two ways to ask whether an attribute is missing. -/
theorem effective_of_build_eq_sample :
    let epoch := Value.date ⟨0, 0, by decide⟩
    let text := Value.text "1970-01-01T00:00:00.000Z"
    let cs : List Condition := [
      { path := "a.b-", operator := .call .attributeExists, value := some (.bool false) },
      { path := "a", operator := .between, value := some epoch, value2 := some (.ofInt 1) },
      { path := "b", operator := .call .notContains, value := some epoch },
      { path := "b", operator := .oneOf, value := some (.list [epoch, Value.text "x"]) }]
    let cs' : List Condition := [
      { path := "a.b-", operator := .call .attributeNotExists },
      { path := "a", operator := .between, value := some text, value2 := some (.ofInt 1) },
      { path := "b", operator := .call .notContains, value := some text },
      { path := "b", operator := .oneOf, value := some (.list [text, Value.text "x"]) }]
    ∃ b b', ((∅ : Builder).reserve []).addAll cs = .ok b ∧
      ((∅ : Builder).reserve [":ab"]).addAll cs' = .ok b' ∧
      b.joined.statement = "attribute_not_exists(#a.#b) AND " ++
        "#a BETWEEN :a AND :a_2 AND NOT contains(#b_2, :b) AND #b_2 IN (:b_2, :b_3)" ∧
      b.build = b'.build ∧ cs ≠ cs' ∧
      cs.map Condition.effective = cs'.map Condition.effective := by
  intro epoch text cs cs'
  let b : Builder := {
    fragments := ["attribute_not_exists(#a.#b)", "#a BETWEEN :a AND :a_2",
      "NOT contains(#b_2, :b)", "#b_2 IN (:b_2, :b_3)"]
    names := .ofList [("#a", "a"), ("#b", "b-"), ("#b_2", "b")]
    values := .ofList [(":a", text), (":a_2", .ofInt 1), (":b", text), (":b_2", text),
      (":b_3", .text "x")] }
  let b' : Builder := { b with reserved := [":ab"] }
  have hb : ((∅ : Builder).reserve []).addAll cs = .ok b := by decide +kernel
  have hb' : ((∅ : Builder).reserve [":ab"]).addAll cs' = .ok b' := by decide +kernel
  have hstatement : b.joined.statement = "attribute_not_exists(#a.#b) AND " ++
      "#a BETWEEN :a AND :a_2 AND NOT contains(#b_2, :b) AND #b_2 IN (:b_2, :b_3)" := by
    decide +kernel
  have hbuild : b.build = b'.build := by decide +kernel
  have hne : cs ≠ cs' := by decide +kernel
  exact ⟨b, b', hb, hb', hstatement, hbuild, hne, effective_of_build_eq hb hb' hbuild⟩

end Builder

end ItemStore
