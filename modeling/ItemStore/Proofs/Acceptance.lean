/-
Which conditions are accepted.

A condition is refused for its operands, which have to fit the operator, or for its path, every
segment of which needs a character that a placeholder can be written with.  Both are questions of
the condition alone.  What a builder has bound and reserved is asked only which placeholders are
taken, and there are always others; and the names of a path clash neither with one another nor with
those of the builder, since each was found beside the ones before it (`mergeNames_assign`).  So
there is no builder that refuses a condition which another accepts, nor a condition that fares
otherwise when it is compiled on its own.
-/
import ItemStore.Proofs.Conjunction

namespace ItemStore

/-- The operands fit the operator: one for a comparison, two for a range, a list with members for a
choice, none or a truth value for the question whether an attribute exists, none for the question
whether it does not, and at most one for any other function. -/
inductive Operator.Fits : Operator → (value value2 : Option Value) → Prop
  | compare (c : Comparison) (v : Value) : Fits (.compare c) (some v) none
  | between (low high : Value) : Fits .between (some low) (some high)
  | oneOf (v : Value) (vs : List Value) : Fits .oneOf (some (.list (v :: vs))) none
  | attributeExists : Fits (.call .attributeExists) none none
  | attributeExistsIs (b : Bool) : Fits (.call .attributeExists) (some (.bool b)) none
  | attributeNotExists : Fits (.call .attributeNotExists) none none
  | call {f : Function} (other : f ≠ .attributeExists ∧ f ≠ .attributeNotExists)
      (value : Option Value) : Fits (.call f) value none

variable {op : Operator} {value value2 : Option Value} {path : String} {err : Error}

/-! ### Operands -/

namespace Test

theorem exists_ofOperands (h : op.Fits value value2) :
    ∃ t, ofOperands op value value2 = .ok t := by
  cases h with
  | compare c v => exact ⟨_, rfl⟩
  | between low high => exact ⟨_, rfl⟩
  | oneOf v vs => exact ⟨_, rfl⟩
  | attributeExists => exact ⟨_, rfl⟩
  | attributeExistsIs b => cases b <;> exact ⟨_, rfl⟩
  | attributeNotExists => exact ⟨_, rfl⟩
  | call other value => simp [ofOperands, ofCall, other]

theorem fits_of_ofCall {f : Function} {t : Test}
    (h : ofOperands (.call f) value value2 = .ok t) : Operator.Fits (.call f) value value2 := by
  by_cases hexists : f = .attributeExists
  · subst hexists
    -- With any other operands the call is refused.
    match value, value2 with
    | none, none => exact .attributeExists
    | some (.leaf (.bool true)), none => exact .attributeExistsIs true
    | some (.leaf (.bool false)), none => exact .attributeExistsIs false
  · by_cases hnot : f = .attributeNotExists
    · subst hnot
      match value, value2 with
      | none, none => exact .attributeNotExists
    · cases value2 with
      | none => exact .call ⟨hexists, hnot⟩ value
      | some w => simp [ofOperands, ofCall, hexists, hnot] at h

theorem fits_of_ofOperands {t : Test} (h : ofOperands op value value2 = .ok t) :
    op.Fits value value2 := by
  cases op with
  | compare c =>
      match value, value2 with
      | some v, none => exact .compare c v
  | between =>
      match value, value2 with
      | some low, some high => exact .between low high
  | oneOf =>
      match value, value2 with
      | some (.list (v :: vs)), none => exact .oneOf v vs
  | call f => exact fits_of_ofCall h

/-- **Operands are taken if they fit the operator**, and only then. -/
theorem exists_ofOperands_iff :
    (∃ t, ofOperands op value value2 = .ok t) ↔ op.Fits value value2 :=
  ⟨fun ⟨_, h⟩ => fits_of_ofOperands h, exists_ofOperands⟩

/-- Operands that are refused are an argument at fault. -/
theorem argument_of_ofOperands (h : ofOperands op value value2 = .error err) :
    ∃ fault, err = .argument fault := by
  cases op with
  | compare c => cases value <;> cases value2 <;> cases h <;> exact ⟨_, rfl⟩
  | between => cases value <;> cases value2 <;> cases h <;> exact ⟨_, rfl⟩
  | oneOf =>
      simp only [ofOperands] at h
      unfold ofChoice at h
      split at h <;> cases h <;> exact ⟨_, rfl⟩
  | call f =>
      simp only [ofOperands, ofCall] at h
      -- the question whether an attribute exists, then every other function
      split at h
      all_goals
        split at h
        · cases h
          exact ⟨_, rfl⟩
        · split at h <;> cases h
          exact ⟨_, rfl⟩

end Test

namespace Builder

/-! ### Conditions -/

/-- A condition is taken if its path has placeholders and its operands fit. -/
theorem exists_condition_iff (b : Builder) :
    (∃ b', b.condition path op value value2 = .ok b') ↔
      (∀ segment ∈ path.toList.splitOn '.', ∃ c ∈ segment, Text.isWord c = true) ∧
        op.Fits value value2 := by
  rw [condition_eq, ← Test.exists_ofOperands_iff]
  constructor
  · rintro ⟨b', h⟩
    obtain ⟨t, ht, h⟩ := bind_eq_ok.mp h
    split at h
    · cases h
    · rename_i hwords
      exact ⟨not_not.mp (mt any_isEmpty_clean_iff.mpr hwords), t, ht⟩
  · rintro ⟨hwords, t, ht⟩
    refine ⟨_, bind_eq_ok.mpr ⟨t, ht, if_neg ?_⟩⟩
    exact fun hany => any_isEmpty_clean_iff.mp hany hwords

/-- A condition that is refused has an argument at fault. -/
theorem argument_of_condition {b : Builder} (h : b.condition path op value value2 = .error err) :
    ∃ fault, err = .argument fault := by
  rw [condition_eq] at h
  rcases bind_eq_error.mp h with hoperands | ⟨t, -, hpath⟩
  · exact Test.argument_of_ofOperands hoperands
  · split at hpath
    · cases hpath
      exact ⟨_, rfl⟩
    · cases hpath

/-- The names of a path clash neither with one another nor with those beside which their
placeholders were found. -/
theorem exists_mergeNames_of_ofPath {names : Dict String} {target : PathPlaceholders}
    (h : PathPlaceholders.ofPath path names = .ok target) :
    (∃ merged, Expression.mergeNames ∅ (Entries.ofList target.names).toList = .ok merged) ∧
      ∃ merged, Expression.mergeNames names (Entries.ofList target.names).toList = .ok merged := by
  rw [PathPlaceholders.ofPath] at h
  split at h
  · cases h
  · cases h
    exact ⟨⟨_, Expression.mergeWith_toList fun _ _ _ _ hbound => by cases hbound⟩,
      _, mergeNames_assign names (pathSegments path)⟩

/-- **Whether a condition is accepted depends on the condition alone.**  Whatever a builder holds,
it takes a condition just when all segments of the path have a word character and the operands fit
the operator; what it refuses is an argument at fault, and is refused with the same error when it is
compiled on its own, whatever value placeholders are in use.  The names of a path that has
placeholders can be merged, first into a table of their own and then into that of the builder. -/
theorem condition_accepts_iff (b : Builder) (path : String) (op : Operator)
    (value value2 : Option Value) :
    ((∃ b', b.condition path op value value2 = .ok b') ↔
      (∀ segment ∈ path.toList.splitOn '.', ∃ c ∈ segment, Text.isWord c = true) ∧
        op.Fits value value2) ∧
    (∀ err, b.condition path op value value2 = .error err → ∃ fault, err = .argument fault) ∧
    (∀ taken err, filterExpression path op taken value value2 = .error err ↔
      b.condition path op value value2 = .error err) ∧
    ∀ target, PathPlaceholders.ofPath path b.names = .ok target →
      (∃ merged, Expression.mergeNames ∅ (Entries.ofList target.names).toList = .ok merged) ∧
        ∃ merged, Expression.mergeNames b.names (Entries.ofList target.names).toList = .ok merged :=
  ⟨b.exists_condition_iff, fun _ => argument_of_condition,
    fun taken err => (b.add_eq_error_iff { path, operator := op, value, value2 } taken err).symm,
    fun _ => exists_mergeNames_of_ofPath⟩

/-- A builder that has given other names and values the placeholders of a path takes a range on it,
and refuses a path with a segment of marks as it is refused on its own. -/
theorem condition_accepts_iff_crowded :
    let b : Builder := {
      fragments := ["#a.#a_2 = :a_a_2"]
      names := .ofList [("#a", "a-"), ("#a_2", "a_2")]
      values := .ofList [(":a_a_2", .ofInt 0)]
      reserved := [":a_a"] }
    let refused := Error.argument (.wordlessPath "a.--")
    ((∅ : Builder).reserve [":a_a"]).condition "a-.a_2" (.compare .eq) (some (.ofInt 0)) none =
        .ok b ∧
      (∃ b', b.condition "a.a-" .between (some (.ofInt 1)) (some (.ofInt 2)) = .ok b') ∧
      filterExpression "a.--" .between [] (some (.ofInt 1)) (some (.ofInt 2)) = .error refused ∧
      b.condition "a.--" .between (some (.ofInt 1)) (some (.ofInt 2)) = .error refused := by
  intro b refused
  have hrefused : filterExpression "a.--" .between [] (some (.ofInt 1)) (some (.ofInt 2)) =
      .error refused := by decide +kernel
  have hsegments : ∀ segment ∈ "a.a-".toList.splitOn '.', ∃ c ∈ segment, Text.isWord c = true := by
    rw [show "a.a-".toList.splitOn '.' = [['a'], ['a', '-']] from by decide]
    intro segment hsegment
    refine ⟨'a', ?_, by decide⟩
    rcases List.mem_pair.mp hsegment with rfl | rfl <;> exact List.mem_cons_self
  obtain ⟨haccepts, -⟩ :=
    b.condition_accepts_iff "a.a-" .between (some (.ofInt 1)) (some (.ofInt 2))
  obtain ⟨-, -, halone, -⟩ :=
    b.condition_accepts_iff "a.--" .between (some (.ofInt 1)) (some (.ofInt 2))
  exact ⟨by decide +kernel, haccepts.mpr ⟨hsegments, .between _ _⟩, hrefused,
    (halone [] refused).mp hrefused⟩

end Builder

end ItemStore
