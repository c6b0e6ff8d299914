/-
Which updates are not compiled.

A field is refused for its name, if no placeholder could be written with it, or for its value, if
the serializer does not encode it under the declared type.  The name comes first.  Neither has to
do with the fields compiled before, since a placeholder that is taken has a next candidate
(`addField_eq_error_iff`).  So compiling goes through the fields up to the first that is refused
and fails as that one does on its own (`addFields_eq_error_iff`).

Fields of the key are passed over before anything is asked of them, and what is removed has no
value to be refused for.
-/
import ItemStore.Proofs.Update

namespace ItemStore

/-- A field with a change that is not compiled, and the failure. -/
inductive Change.Refused (serializer : Serializer) (schema : Schema) :
    String × Change → Error → Prop
  /-- The name has no word character. -/
  | name {name : String} {c : Change} (outside : schema.isKey name = false)
      (wordless : ∀ ch ∈ name.toList, Text.isWord ch = false) :
      Refused serializer schema (name, c) (.argument (.wordlessName name))
  /-- The value is not encoded under the declared type. -/
  | value {name : String} {c : Change} {k : Keyword} {v : Value} {err : Error}
      (outside : schema.isKey name = false) (worded : ∃ ch ∈ name.toList, Text.isWord ch = true)
      (takes : c.under k = some (some v))
      (rejected : serializer.encode (schema.datatype? name) v = .error err) :
      Refused serializer schema (name, c) err

variable {serializer : Serializer} {schema : Schema} {field : String × Change} {err : Error}

/-! ### What can be refused -/

theorem Change.under_eq_some_iff {c : Change} {k : Keyword} {v? : Option Value} :
    c.under k = some v? ↔ c.action = (k, v?) := by
  rw [Change.under_eq, Prod.ext_iff]
  by_cases hk : k = c.action.1
  · simp [hk]
  · simp [hk, Ne.symm hk]

/-- Fields of the key are not refused. -/
theorem Change.Refused.outside (h : Change.Refused serializer schema field err) :
    schema.isKey field.1 = false := by
  cases h with
  | name outside _ => exact outside
  | value outside _ _ _ => exact outside

/-- What is removed is refused for its name only. -/
theorem Change.Refused.of_remove {name : String} {c : Change}
    (h : Change.Refused serializer schema (name, c) err) (hremove : c.under .remove = some none) :
    err = .argument (.wordlessName name) := by
  cases h with
  | name _ _ => rfl
  | value _ _ takes _ =>
      rw [Change.under_eq_some_iff] at hremove takes
      rw [hremove] at takes
      cases takes

namespace UpdateExpression

/-! ### Compiling field after field -/

/-- **A field is refused whatever was compiled before it.** -/
theorem addField_eq_error_iff (e : UpdateExpression) (name : String) (c : Change) :
    e.addField serializer schema name c = .error err ↔
      Change.Refused serializer schema (name, c) err := by
  constructor
  · intro h
    unfold addField at h
    by_cases hkey : schema.isKey name = true
    · rw [if_pos hkey] at h
      cases h
    rw [if_neg hkey] at h
    rw [Bool.not_eq_true] at hkey
    by_cases hclean : (Text.clean name).isEmpty = true
    · rw [if_pos hclean] at h
      cases h
      exact .name hkey (Placeholder.isEmpty_clean_iff.mp hclean)
    · rw [if_neg hclean] at h
      rw [Placeholder.isEmpty_clean_iff] at hclean
      push Not at hclean
      cases haction : c.action with
      | mk k v? =>
          rw [haction] at h
          cases v? with
          | none => cases h
          | some v =>
              rcases bind_eq_error.mp h with hrejected | ⟨a, -, hdone⟩
              · exact .value hkey (by simpa using hclean)
                  (Change.under_eq_some_iff.mpr haction) hrejected
              · cases hdone
  · intro h
    cases h with
    | name outside wordless =>
        rw [addField, if_neg (by simp [outside]),
          if_pos (Placeholder.isEmpty_clean_iff.mpr wordless)]
    | value outside worded takes rejected =>
        have hclean : ¬(Text.clean name).isEmpty = true := by
          rw [Placeholder.isEmpty_clean_iff]
          push Not
          simpa using worded
        rw [addField, if_neg (by simp [outside]), if_neg hclean,
          Change.under_eq_some_iff.mp takes]
        exact bind_eq_error.mpr (Or.inl rejected)

theorem exists_addField_iff (e : UpdateExpression) (name : String) (c : Change) :
    (∃ e', e.addField serializer schema name c = .ok e') ↔
      ¬∃ err, Change.Refused serializer schema (name, c) err := by
  simp only [← e.addField_eq_error_iff name c]
  cases e.addField serializer schema name c <;> simp

/-- **Compiling fails as the first field does that is refused.** -/
theorem addFields_eq_error_iff (fields : List (String × Change)) : ∀ {e : UpdateExpression},
    addFields serializer schema fields e = .error err ↔
      ∃ before field after, fields = before ++ field :: after ∧
        (∀ f ∈ before, ¬∃ err', Change.Refused serializer schema f err') ∧
        Change.Refused serializer schema field err := by
  induction fields with
  | nil =>
      intro e
      constructor
      · intro h
        cases h
      · rintro ⟨before, field, after, hfields, -⟩
        cases before <;> cases hfields
  | cons first rest ih =>
      obtain ⟨name, c⟩ := first
      intro e
      rw [addFields, bind_eq_error, e.addField_eq_error_iff]
      constructor
      · rintro (hfirst | ⟨e', hfirst, hrest⟩)
        · exact ⟨[], _, rest, rfl, by simp, hfirst⟩
        · obtain ⟨before, field, after, rfl, hbefore, hfield⟩ := ih.mp hrest
          refine ⟨(name, c) :: before, field, after, rfl, ?_, hfield⟩
          exact List.forall_mem_cons.mpr ⟨(e.exists_addField_iff name c).mp ⟨e', hfirst⟩, hbefore⟩
      · rintro ⟨before, field, after, hfields, hbefore, hfield⟩
        cases before with
        | nil =>
            cases hfields
            exact Or.inl hfield
        | cons _ before =>
            cases hfields
            obtain ⟨hfirst, hbefore⟩ := List.forall_mem_cons.mp hbefore
            obtain ⟨e', he'⟩ := (e.exists_addField_iff name c).mpr hfirst
            exact Or.inr ⟨e', he', ih.mpr ⟨before, field, after, rfl, hbefore, hfield⟩⟩

end UpdateExpression

namespace Update

/-- **An update is compiled unless one of its fields is refused, and fails as the first of these
does.**  No field of the key is refused, and none that is removed but for its name. -/
theorem compile_eq_error_iff (u : Update) (serializer : Serializer) (schema : Schema) :
    ((∃ err, u.compile serializer schema = .error err) ↔
      ∃ field ∈ u.fields, ∃ err, Change.Refused serializer schema field err) ∧
    (∀ err, u.compile serializer schema = .error err ↔
      ∃ before field after, u.fields = before ++ field :: after ∧
        (∀ f ∈ before, ¬∃ err', Change.Refused serializer schema f err') ∧
        Change.Refused serializer schema field err) ∧
    ∀ name c err, Change.Refused serializer schema (name, c) err → schema.isKey name = false ∧
      (c.under .remove = some none → err = .argument (.wordlessName name)) := by
  refine ⟨⟨?_, ?_⟩, fun err => UpdateExpression.addFields_eq_error_iff u.fields,
    fun name c err h => ⟨h.outside, h.of_remove⟩⟩
  · rintro ⟨err, h⟩
    obtain ⟨before, field, after, hfields, -, hrefused⟩ :=
      (UpdateExpression.addFields_eq_error_iff u.fields).mp h
    exact ⟨field, by simp [hfields], err, hrefused⟩
  · rintro ⟨field, hfield, hrefused⟩
    classical
    -- Among the fields that are refused the first is the one that counts.
    have hfound : (u.fields.find? fun f =>
        decide (∃ err, Change.Refused serializer schema f err)).isSome :=
      List.find?_isSome.mpr ⟨field, hfield, decide_eq_true hrefused⟩
    obtain ⟨first, hfirst⟩ := Option.isSome_iff_exists.mp hfound
    obtain ⟨hrefused, before, after, hfields, hbefore⟩ := List.find?_eq_some_iff_append.mp hfirst
    obtain ⟨err, hrefused⟩ := of_decide_eq_true hrefused
    exact ⟨err, (UpdateExpression.addFields_eq_error_iff u.fields).mpr
      ⟨before, first, after, hfields, fun f hf => by simpa using hbefore f hf, hrefused⟩⟩

/-- A key that could not be encoded and fields that are removed stand before the field that is
refused for its value, and one without a word character after it. -/
theorem compile_eq_error_iff_unencodable :
    let u : Update := { fields := [
      ("id", .set .null), ("bio", .set (.text "")), ("nick", .remove),
      ("score", .increment (.text "lots")), ("$", .remove)] }
    let schema := (Schema.ofHashKey "id" .string).withAttribute "score" .number
    let err := Error.encoding (.notANumber "lots")
    u.compile Encoding.standard schema = .error err ∧
      (∃ field ∈ u.fields, ∃ err', Change.Refused Encoding.standard schema field err') ∧
      ∃ before field after, u.fields = before ++ field :: after ∧
        (∀ f ∈ before, ¬∃ err', Change.Refused Encoding.standard schema f err') ∧
        Change.Refused Encoding.standard schema field err := by
  intro u schema err
  have hcompile : u.compile Encoding.standard schema = .error err := by decide
  obtain ⟨hsome, hfirst, -⟩ := compile_eq_error_iff u Encoding.standard schema
  exact ⟨hcompile, hsome.mp ⟨err, hcompile⟩, (hfirst err).mp hcompile⟩

end Update

end ItemStore
