/-
An update is an insertion-ordered map of changes.

Calls search a list and write into it, and what they leave depends on the whole course of them: a
change may take another's place, be of another kind than that one, and be replaced in turn.  What
they leave can be told without that course.  A field stands where it was first touched, and has
the change it was last given (`ofCalls_first_place`).  So two courses of calls that touch the same
fields in the same order, and end with the same changes, make one update.

The induction is on the calls from the end.  One more call says what becomes of the names
(`map_fst_replace`) and of every look-up (`lookup_replace`), and the same two things are said of
one more change in a list: `touched_concat` and `lastChange_concat`.
-/
import ItemStore.Proofs.UpdateTargets

namespace ItemStore.Update

/-! ### Calls -/

/-- One call to the builder. -/
inductive Call
  | set (name : String) (v : Value)
  | increment (name : String) (v : Value)
  | decrement (name : String) (v : Value)
  | remove (name : String)
  | field (name : String) (c : Change)

/-- What a call makes of an update. -/
def Call.apply (u : Update) : Call → Update
  | .set name v => u.set name v
  | .increment name v => u.increment name v
  | .decrement name v => u.decrement name v
  | .remove name => u.remove name
  | .field name c => u.field name c

/-- The field a call touches, and the change it gives it. -/
def Call.change : Call → String × Change
  | .set name v => (name, .set v)
  | .increment name v => (name, .increment v)
  | .decrement name v => (name, .decrement v)
  | .remove name => (name, .remove)
  | .field name c => (name, c)

/-- The update that calls make, one after another. -/
def ofCalls (calls : List Call) : Update :=
  calls.foldl Call.apply ∅

/-! ### What a list of changes says of a field -/

/-- The fields that changes touch, each where it is first touched. -/
def touched (changes : List (String × Change)) : List String :=
  (changes.map (·.1)).eraseDups

/-- The change a field is given last. -/
def lastChange (changes : List (String × Change)) (name : String) : Option Change :=
  changes.reverse.lookup name

theorem touched_concat (changes : List (String × Change)) (name : String) (c : Change) :
    touched (changes ++ [(name, c)]) =
      if name ∈ touched changes then touched changes else touched changes ++ [name] := by
  have hnames : (changes ++ [(name, c)]).map (·.1) = changes.map (·.1) ++ [name] := by simp
  rw [touched, touched, hnames, List.eraseDups_append]
  simp only [List.mem_eraseDups]
  by_cases hlisted : name ∈ changes.map (·.1)
  · have hnone : [name].removeAll (changes.map (·.1)) = [] := by
      simpa [List.removeAll] using hlisted
    rw [if_pos hlisted, hnone, List.eraseDups_nil, List.append_nil]
  · have hnew : [name].removeAll (changes.map (·.1)) = [name] := by
      simpa [List.removeAll] using hlisted
    rw [if_neg hlisted, hnew]
    rfl

theorem lastChange_concat (changes : List (String × Change)) (name : String) (c : Change)
    (n : String) : lastChange (changes ++ [(name, c)]) n =
      if n = name then some c else lastChange changes n := by
  rw [lastChange, lastChange, List.reverse_append, List.reverse_singleton, List.singleton_append,
    Entries.lookup_cons]

/-! ### What a list of changes makes of an update -/

/-- A look-up after a change finds the change under its name, and all else as it was. -/
theorem lookup_replace (name : String) (c : Change) (fields : List (String × Change))
    (n : String) : (replace name c fields).lookup n =
      if n = name then some c else fields.lookup n := by
  induction fields with
  | nil => rw [replace, Entries.lookup_cons]
  | cons field rest ih =>
      obtain ⟨m, d⟩ := field
      by_cases hm : m = name
      · rw [replace, if_pos hm, Entries.lookup_cons, Entries.lookup_cons, hm]
        by_cases hn : n = name
        · rw [if_pos hn, if_pos hn]
        · rw [if_neg hn, if_neg hn, if_neg hn]
      · rw [replace, if_neg hm, Entries.lookup_cons, Entries.lookup_cons, ih]
        by_cases hn : n = name
        · have hother : n ≠ m := fun he => hm (he.symm.trans hn)
          rw [if_neg hother, if_pos hn, if_pos hn]
        · rw [if_neg hn, if_neg hn]

theorem ofList_concat (changes : List (String × Change)) (name : String) (c : Change) :
    ofList (changes ++ [(name, c)]) = (ofList changes).field name c := by
  rw [ofList, List.foldl_append]
  rfl

/-- **Fields stand in the order in which they were first touched.** -/
theorem names_ofList (changes : List (String × Change)) :
    (ofList changes).fields.map (·.1) = touched changes := by
  induction changes using List.reverseRecOn with
  | nil => rfl
  | append_singleton changes last ih =>
      obtain ⟨name, c⟩ := last
      rw [ofList_concat, Update.field, map_fst_replace, ih, touched_concat]

/-- **A field has the change it was last given.** -/
theorem lookup_ofList (changes : List (String × Change)) (name : String) :
    (ofList changes).fields.lookup name = lastChange changes name := by
  induction changes using List.reverseRecOn with
  | nil => rfl
  | append_singleton changes last ih =>
      obtain ⟨n, c⟩ := last
      rw [ofList_concat, Update.field, lookup_replace, ih, lastChange_concat]

/-- The fields are told by what was touched and what was last given. -/
theorem fields_ofList (changes : List (String × Change)) :
    (ofList changes).fields =
      (touched changes).filterMap fun name => (lastChange changes name).map (name, ·) := by
  rw [← names_ofList, List.filterMap_map]
  have hagree := Entries.Agree.of_nodup (made_ofList changes).nodup_names
  have hself : ∀ field ∈ (ofList changes).fields,
      (lastChange changes field.1).map (field.1, ·) = some field := by
    intro field hfield
    rw [← lookup_ofList, hagree.lookup_eq_some_iff.mpr hfield, Option.map_some]
  exact ((List.filterMap_congr hself).trans List.filterMap_some).symm

/-! ### What calls make of an update -/

theorem Call.apply_eq (u : Update) (call : Call) :
    call.apply u = u.field call.change.1 call.change.2 := by
  cases call <;> rfl

/-- Calls are a list of changes. -/
theorem ofCalls_eq (calls : List Call) : ofCalls calls = ofList (calls.map Call.change) := by
  rw [ofCalls, ofList, List.foldl_map]
  exact congrArg (calls.foldl · ∅) (funext fun u => funext fun call => call.apply_eq u)

/-- A list of changes is a list of calls. -/
theorem ofList_eq (changes : List (String × Change)) :
    ofList changes = ofCalls (changes.map fun p => .field p.1 p.2) := by
  rw [ofCalls_eq, List.map_map]
  exact congrArg ofList (List.map_id changes).symm

/-- **An update keeps the last change of a field at the first place of the field.**  Calls list
every field they touch once, in the order of the first calls that touch them, each with the change
of the last call that does.  Other calls that touch the same fields in this order, with the same
last changes, make the same update, and it compiles to the same expression.  A list of changes is
no other thing than a list of calls. -/
theorem ofCalls_first_place (calls : List Call) :
    let changes := calls.map Call.change
    let u := ofCalls calls
    (u = ofList changes ∧ ∀ pairs : List (String × Change),
      ofList pairs = ofCalls (pairs.map fun p => .field p.1 p.2)) ∧
    (u.fields.map (·.1)).Nodup ∧ u.fields.map (·.1) = touched changes ∧
    (∀ name c, (name, c) ∈ u.fields ↔ lastChange changes name = some c) ∧
    ∀ others : List Call, touched (others.map Call.change) = touched changes →
      (∀ name, lastChange (others.map Call.change) name = lastChange changes name) →
        ofCalls others = u ∧ ∀ (serializer : Serializer) (schema : Schema),
          (ofCalls others).compile serializer schema = u.compile serializer schema := by
  intro changes u
  have hu : u = ofList changes := ofCalls_eq calls
  have hnodup : (u.fields.map (·.1)).Nodup := hu ▸ (made_ofList changes).nodup_names
  refine ⟨⟨hu, ofList_eq⟩, hnodup, hu ▸ names_ofList changes, fun name c => ?_,
    fun others htouched hlast => ?_⟩
  · rw [← (Entries.Agree.of_nodup hnodup).lookup_eq_some_iff, hu, lookup_ofList]
  · have hsame : ofCalls others = u := by
      rw [hu, ofCalls_eq, Update.mk.injEq, fields_ofList, fields_ofList, htouched]
      exact List.filterMap_congr fun name _ => congrArg _ (hlast name)
    exact ⟨hsame, fun serializer schema => by rw [hsame]⟩

/-- A field set, another one taken from and then set, and the first removed, told in two ways. -/
theorem ofCalls_first_place_replaced :
    let calls : List Call := [.set "a" (.ofInt 1), .decrement "b" (.ofInt 9),
      .set "b" (.ofInt 2), .remove "a"]
    let others : List Call := [.field "a" (.increment (.ofInt 5)), .remove "a",
      .set "b" (.ofInt 2)]
    let schema := Schema.ofHashKey "id" .string
    (ofCalls calls).fields = [("a", .remove), ("b", .set (.ofInt 2))] ∧
      ofCalls others = ofCalls calls ∧
      ((ofCalls others).compile Encoding.standard schema).map (·.statement) =
        .ok "SET #b = :b REMOVE #a" := by
  intro calls others schema
  have htouched : touched (others.map Call.change) = touched (calls.map Call.change) := by decide
  have hlast : ∀ name, lastChange (others.map Call.change) name =
      lastChange (calls.map Call.change) name := by
    intro name
    by_cases ha : name = "a"
    · rw [ha]
      decide
    by_cases hb : name = "b"
    · rw [hb]
      decide
    · simp [others, calls, lastChange, Entries.lookup_cons, Call.change, ha, hb]
  obtain ⟨hsame, hcompiled⟩ := (ofCalls_first_place calls).2.2.2.2 others htouched hlast
  exact ⟨by decide, hsame, (congrArg _ (hcompiled Encoding.standard schema)).trans (by decide)⟩

end ItemStore.Update
