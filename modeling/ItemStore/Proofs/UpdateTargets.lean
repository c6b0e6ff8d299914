/-
Which attributes an update changes, and how often.

A store refuses an update in which two operands have the same attribute as their target, be it
under one action or under two.  Compiling does not look for that.  Every field outside the key is
given one operand, so that the targets of the operands are these fields, each as often as it is
listed (`targets_perm`), and no attribute is the target of two operands just when no field outside
the key is listed twice.

Calls list no field twice, since a further change of a field takes the place of the first
(`Made.nodup_names`).  An update that is read keeps its fields as they are written, and may.
-/
import ItemStore.Proofs.UpdateTables
import ItemStore.Wire.Expression

namespace ItemStore

/-- The attributes that the operands change, action by action, as the tables give them. -/
def UpdateExpression.targets (e : UpdateExpression) : List (Option String) :=
  Keyword.all.flatMap fun k => (e.clauses.operands k).map fun o => (e.reading k o).map (·.1)

namespace Update

open UpdateExpression

/-! ### The updates that calls make -/

/-- What calls make of an update without fields. -/
inductive Made : Update → Prop
  | empty : Made ∅
  | field {u : Update} (h : Made u) (name : String) (c : Change) : Made (u.field name c)

/-- A change of a field that is listed lists no further one. -/
theorem map_fst_replace (name : String) (c : Change) (fields : List (String × Change)) :
    (replace name c fields).map (·.1) =
      if name ∈ fields.map (·.1) then fields.map (·.1) else fields.map (·.1) ++ [name] := by
  induction fields with
  | nil => simp [replace]
  | cons field rest ih =>
      obtain ⟨n, d⟩ := field
      by_cases hn : n = name
      · simp [replace, hn]
      · rw [replace, if_neg hn, List.map_cons, ih]
        by_cases hlisted : name ∈ rest.map (·.1)
        · have hlisted' : name ∈ ((n, d) :: rest).map (·.1) := List.mem_cons_of_mem n hlisted
          rw [if_pos hlisted, if_pos hlisted', List.map_cons]
        · have hlisted' : name ∉ ((n, d) :: rest).map (·.1) := by
            rw [List.map_cons, List.mem_cons, not_or]
            exact ⟨Ne.symm hn, hlisted⟩
          rw [if_neg hlisted, if_neg hlisted', List.map_cons, List.cons_append]

theorem made_ofList (changes : List (String × Change)) : (ofList changes).Made := by
  suffices h : ∀ u : Update, u.Made → (changes.foldl (fun u p => u.field p.1 p.2) u).Made from
    h ∅ .empty
  induction changes with
  | nil => exact fun u h => h
  | cons p changes ih => exact fun u h => ih _ (h.field p.1 p.2)

/-- **Calls list no field twice.** -/
theorem Made.nodup_names {u : Update} (h : u.Made) : (u.fields.map (·.1)).Nodup := by
  induction h with
  | empty => exact List.nodup_nil
  | field _ name c ih =>
      rw [Update.field, map_fst_replace]
      split
      · exact ih
      · rename_i hlisted
        exact List.nodup_append.mpr ⟨ih, List.nodup_singleton name, by
          rintro a ha b hb rfl
          exact hlisted (List.mem_singleton.mp hb ▸ ha)⟩

/-! ### The targets of a compiled update -/

variable {u : Update} {serializer : Serializer} {schema : Schema} {e : UpdateExpression}

theorem fst_of_encodeField {f : String × Option Value} {f' : String × Option Attribute}
    (h : serializer.encodeField schema f = .ok f') : f'.1 = f.1 := by
  obtain ⟨name, v?⟩ := f
  cases v? with
  | none =>
      cases h
      rfl
  | some v =>
      obtain ⟨a, -, he⟩ := bind_eq_ok.mp h
      cases he
      rfl

/-- Under every action the targets are the fields that come under it, in order. -/
theorem targets_under (h : u.compile serializer schema = .ok e) (k : Keyword) :
    ((e.clauses.operands k).map fun o => (e.reading k o).map (·.1)) =
      (u.under schema k).map fun f => some f.1 := by
  obtain ⟨encoded, hencoded, hstates⟩ := compiled h k
  have hread : ((e.clauses.operands k).map fun o => (e.reading k o).map (·.1)) =
      encoded.map fun f => some f.1 := by
    rw [← List.forall₂_eq_eq_eq, List.forall₂_map_left_iff, List.forall₂_map_right_iff]
    refine hstates.imp fun o f hs => ?_
    rw [hs.reading_eq, Option.map_some]
  have hnames : ((u.under schema k).map fun f => some f.1) = encoded.map fun f => some f.1 := by
    rw [← List.forall₂_eq_eq_eq, List.forall₂_map_left_iff, List.forall₂_map_right_iff]
    exact hencoded.imp fun f f' hf => congrArg some (fst_of_encodeField hf).symm
  rw [hread, hnames]

/-- A field outside the key comes under one action. -/
theorem flatMap_listed (schema : Schema) (name : String) (c : Change) :
    (Keyword.all.flatMap fun k => ((Change.listed schema k (name, c)).map (·.1)).toList) =
      nonKeys schema [(name, c)] := by
  by_cases hkey : schema.isKey name = true
  · simp [Change.listed, nonKeys, hkey]
  · have hone : ∀ action : Keyword, (Keyword.all.flatMap fun k =>
        if k = action then [name] else []) = [name] := by
      intro action
      cases action <;> rfl
    rw [Bool.not_eq_true] at hkey
    rw [nonKeys, List.map_singleton, List.filter_singleton, hkey, ← hone c.action.1]
    congr 1
    funext k
    rw [Change.listed, hkey, Change.under_eq]
    by_cases hk : k = c.action.1
    · simp [hk]
    · simp [hk]

/-- The fields outside the key are those that come under the actions. -/
theorem under_perm_nonKeys (schema : Schema) (fields : List (String × Change)) :
    (Keyword.all.flatMap fun k => (fields.filterMap (Change.listed schema k)).map (·.1)).Perm
      (nonKeys schema fields) := by
  induction fields with
  | nil => rfl
  | cons field rest ih =>
      obtain ⟨name, c⟩ := field
      have hsplit : ∀ k, (((name, c) :: rest).filterMap (Change.listed schema k)).map (·.1) =
          ((Change.listed schema k (name, c)).map (·.1)).toList ++
            (rest.filterMap (Change.listed schema k)).map (·.1) := by
        intro k
        rw [List.filterMap_cons]
        cases Change.listed schema k (name, c) <;> rfl
      have hcons : nonKeys schema ((name, c) :: rest) =
          nonKeys schema [(name, c)] ++ nonKeys schema rest := by
        rw [nonKeys, nonKeys, nonKeys, ← List.filter_append, ← List.map_append]
        rfl
      simp only [hsplit]
      refine (List.flatMap_append_perm _ _ _).symm.trans ?_
      rw [flatMap_listed, hcons]
      exact ih.append_left _

/-- **The targets of a compiled update are the fields outside the key**, each as often as it is
listed. -/
theorem targets_perm (h : u.compile serializer schema = .ok e) :
    e.targets.Perm ((nonKeys schema u.fields).map some) := by
  have htargets : e.targets =
      (Keyword.all.flatMap fun k => (u.under schema k).map (·.1)).map some := by
    rw [targets, List.map_flatMap]
    congr 1
    funext k
    rw [targets_under h, List.map_map]
    rfl
  rw [htargets]
  exact (under_perm_nonKeys schema u.fields).map some

/-- **An attribute is the target of two operands just when a field outside the key is listed
twice**, and calls list none twice.  The targets are the fields outside the key, each as often as
it is listed. -/
theorem targets_nodup_iff (h : u.compile serializer schema = .ok e) :
    e.targets.Perm ((nonKeys schema u.fields).map some) ∧
      (e.targets.Nodup ↔ (nonKeys schema u.fields).Nodup) ∧ (u.Made → e.targets.Nodup) := by
  have hperm := targets_perm h
  have hiff : e.targets.Nodup ↔ (nonKeys schema u.fields).Nodup := by
    rw [hperm.nodup_iff, List.nodup_map_iff (Option.some_injective String)]
  exact ⟨hperm, hiff, fun hmade => hiff.mpr (hmade.nodup_names.filter _)⟩

/-- Changes of which two take the place of earlier ones, one of them under another action. -/
theorem targets_nodup_iff_replaced :
    let u := ofList [("id", .set (.text "k")), ("a", .set (.ofInt 1)), ("a-", .remove),
      ("a", .increment (.ofInt 2)), ("a-", .set (.text "x"))]
    let schema := Schema.ofHashKey "id" .string
    ∃ e, u.compile Encoding.standard schema = .ok e ∧
      e.statement = "SET #a_2 = :a_2 ADD #a :a" ∧
      e.targets.Perm ((nonKeys schema u.fields).map some) ∧
      (e.targets.Nodup ↔ (nonKeys schema u.fields).Nodup) ∧ e.targets.Nodup := by
  intro u schema
  obtain ⟨hperm, hiff, hmade⟩ :=
    targets_nodup_iff (show u.compile Encoding.standard schema = .ok _ from rfl)
  exact ⟨_, rfl, by decide, hperm, hiff, hmade (made_ofList _)⟩

/-- An update that is read with a field written twice: its text has two operands for one
attribute. -/
theorem targets_repeated_when_read :
    let written (v : Value) : Json := .list [.str "a", Wire.ofChange (.set v)]
    let j : Json := .ofMembers [("fields", .list [written (.ofInt 1), written (.ofInt 2)])]
    ∃ u e, Wire.update? j = some u ∧
      u.compile Encoding.standard (Schema.ofHashKey "id" .string) = .ok e ∧
      e.statement = "SET #a = :a, #a = :a_2" ∧ ¬e.targets.Nodup :=
  ⟨_, _, rfl, rfl, by decide, by decide⟩

end Update

end ItemStore
