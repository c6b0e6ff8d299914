/-
What a request says beside what is passed through.

The keys of a table, its typed options and those that are passed through are written as members of
one object, and nothing keeps the last from having the name of another.  What a member of some name
then says is the key list or the typed option and after it whatever is passed through under that
name (`named_ofTableRequest`).  So the object says what was asked for just when nothing is passed
through under one of those names (`faithful_iff_clear`), and only then is it read back: a reader
takes the names for the members they belong to, and never has one of them among what is passed
through (`clear_of_tableRequest?`).
-/
import ItemStore.Proofs.Wire.Batch

namespace ItemStore

/-! ### Options that are built -/

namespace ReadOptions

/-- A call that builds options. -/
inductive Call
  | consistentRead (b : Bool)
  | projection (text : String) (names : Dict String)
  | option (name : String) (value : Datum)

/-- The options with one call more. -/
def call (o : ReadOptions) : Call → ReadOptions
  | .consistentRead b => o.withConsistentRead b
  | .projection text names => o.withProjection text names
  | .option name value => o.withOption name value

/-- The options that calls build, one after another. -/
def ofCalls (calls : List Call) : ReadOptions :=
  calls.foldl call ∅

/-- No call passes an option through under the name of another member. -/
def SparesMembers (calls : List Call) : Prop :=
  ∀ name value, Call.option name value ∈ calls → name ∉ "Keys" :: Wire.typedOptionNames

/-- What is bound is what was passed through, by one call or another. -/
theorem mem_keys_extra_foldl (calls : List Call) : ∀ {o : ReadOptions} {name : String},
    name ∈ (calls.foldl call o).extra.keys ↔
      name ∈ o.extra.keys ∨ ∃ value, Call.option name value ∈ calls := by
  induction calls with
  | nil => simp
  | cons c calls ih =>
      intro o name
      rw [List.foldl_cons, ih]
      cases c with
      | consistentRead b => simp [call, withConsistentRead]
      | projection text names => simp [call, withProjection]
      | option name' value =>
          rw [call, withOption, Entries.mem_keys_insert]
          simp only [List.mem_cons, Call.option.injEq, exists_or, exists_and_left]
          tauto

theorem clear_ofCalls_iff (calls : List Call) : (ofCalls calls).Clear ↔ SparesMembers calls := by
  constructor
  · intro h name value hcall hname
    have hbound : name ∈ (ofCalls calls).extra.keys :=
      (mem_keys_extra_foldl calls).mpr (Or.inr ⟨value, hcall⟩)
    exact (Entries.not_mem_keys_iff _).mpr (h name hname) hbound
  · intro h name hname
    rw [← Entries.not_mem_keys_iff, ofCalls, mem_keys_extra_foldl]
    rintro (hempty | ⟨value, hcall⟩)
    · cases hempty
    · exact h name value hcall hname

end ReadOptions

theorem BatchRequest.clear_ofTable_iff (name : String) (keys : List NativeKey)
    (options : ReadOptions) : (ofTable name keys options).Clear ↔ options.Clear := by
  constructor
  · intro h
    have hfind : (ofTable name keys options).tables.find? name = some { keys, options } := by
      rw [ofTable, Entries.find?_insert, if_pos rfl]
    exact h name _ hfind
  · intro h
    exact clear_ofTable h name keys

namespace Wire

/-! ### What the members of an object say -/

/-- What the members of an object with one name say, in their order. -/
def named (name : String) : Json → List Json
  | .object members => members.filterMap fun
    | (.plain k, j) => if k = name then some j else none
    | (.broken .., _) => none
  | _ => []

theorem named_ofMembers (name : String) (members : List (String × Json)) :
    named name (.ofMembers members) =
      members.filterMap fun m => if m.1 = name then some m.2 else none := by
  rw [Json.ofMembers, named, List.filterMap_map]
  rfl

/-- The object of a table says what was asked for: no member comes twice, and the key list and the
typed options stand under their names, those that are not set being left out. -/
structure Faithful (keys : List NativeKey) (o : ReadOptions) (entry : Json) : Prop where
  once : ∀ name, (named name entry).length ≤ 1
  keys : named "Keys" entry = [.list (keys.map ofNativeItem)]
  consistentRead : named "ConsistentRead" entry = (o.consistentRead.map .bool).toList
  projection : named "ProjectionExpression" entry = (o.projection.map .str).toList
  projectionNames : named "ExpressionAttributeNames" entry =
    (o.projectionNames.map (ofDict .str)).toList

/-- The members of a table that are not passed through. -/
def ownMembers (r : TableRequest) : List (String × Json) :=
  ("Keys", .list (r.keys.map ofNativeItem)) :: typedOptions r.options

theorem mem_names_of_mem_ownMembers {r : TableRequest} {m : String × Json}
    (h : m ∈ ownMembers r) : m.1 ∈ "Keys" :: typedOptionNames := by
  rcases List.mem_cons.mp h with rfl | htyped
  · exact List.mem_cons_self
  · exact List.mem_cons_of_mem _ (mem_typedOptionNames htyped)

/-- **Under a name stands what belongs there and then what is passed through under it.** -/
theorem named_ofTableRequest (name : String) (r : TableRequest) :
    named name (ofTableRequest r) = named name (.ofMembers (ownMembers r)) ++
      ((r.options.extra.find? name).map ofDatum).toList := by
  rw [ofTableRequest, named_ofMembers, named_ofMembers, optionMembers, ← List.cons_append,
    List.filterMap_append, Entries.filterMap_toList]
  rfl

/-- Members whose names differ say one thing each. -/
theorem length_named_le_one {members : List (String × Json)} (h : (members.map (·.1)).Nodup)
    (name : String) : (named name (.ofMembers members)).length ≤ 1 := by
  rw [named_ofMembers]
  induction members with
  | nil => simp
  | cons m members ih =>
      obtain ⟨hm, hrest⟩ := List.nodup_cons.mp h
      rw [List.filterMap_cons]
      by_cases hname : m.1 = name
      · have hlater : members.filterMap (fun m => if m.1 = name then some m.2 else none) = [] := by
          rw [List.filterMap_eq_nil_iff]
          intro m' hm'
          have hne : m'.1 ≠ name := fun he =>
            hm (List.mem_map.mpr ⟨m', hm', he.trans hname.symm⟩)
          rw [if_neg hne]
        simp [hname, hlater]
      · simpa [hname] using ih hrest

theorem nodup_ownMembers (r : TableRequest) : ((ownMembers r).map (·.1)).Nodup := by
  refine List.nodup_cons.mpr ⟨fun hkeys => ?_, nodup_typedOptions r.options⟩
  obtain ⟨m, hm, he⟩ := List.mem_map.mp hkeys
  have htyped : m.1 ∈ typedOptionNames := mem_typedOptionNames hm
  have hname : m.1 = "Keys" := he
  rw [hname] at htyped
  exact absurd htyped (by decide)

/-- What belongs there says what was asked for. -/
theorem faithful_ownMembers (r : TableRequest) :
    Faithful r.keys r.options (.ofMembers (ownMembers r)) := by
  refine ⟨length_named_le_one (nodup_ownMembers r), ?_, ?_, ?_, ?_⟩
  all_goals
    obtain ⟨keys, consistent, projection, names, extra⟩ := r
    rw [named_ofMembers]
    cases consistent <;> cases projection <;> cases names <;> simp [ownMembers, typedOptions]

/-- **The object of a table says what was asked for just when the options are clear.** -/
theorem faithful_iff_clear (r : TableRequest) :
    Faithful r.keys r.options (ofTableRequest r) ↔ r.options.Clear := by
  have hown := faithful_ownMembers r
  constructor
  · intro h name hname
    have hsame : named name (ofTableRequest r) = named name (.ofMembers (ownMembers r)) := by
      simp only [typedOptionNames, List.mem_cons, List.not_mem_nil, or_false] at hname
      rcases hname with rfl | rfl | rfl | rfl
      · rw [h.keys, hown.keys]
      · rw [h.consistentRead, hown.consistentRead]
      · rw [h.projection, hown.projection]
      · rw [h.projectionNames, hown.projectionNames]
    rw [named_ofTableRequest] at hsame
    simpa using hsame
  · intro h
    have hsame : ∀ name ∈ "Keys" :: typedOptionNames,
        named name (ofTableRequest r) = named name (.ofMembers (ownMembers r)) := by
      intro name hname
      rw [named_ofTableRequest, h name hname]
      simp
    refine ⟨fun name => ?_, ?_, ?_, ?_, ?_⟩
    · by_cases hname : name ∈ "Keys" :: typedOptionNames
      · rw [hsame name hname]
        exact hown.once name
      · have hnone : named name (.ofMembers (ownMembers r)) = [] := by
          rw [named_ofMembers, List.filterMap_eq_nil_iff]
          intro m hm
          have hne : m.1 ≠ name := fun he => hname (he ▸ mem_names_of_mem_ownMembers hm)
          rw [if_neg hne]
        rw [named_ofTableRequest, hnone, List.nil_append]
        cases r.options.extra.find? name <;> simp
    · rw [hsame _ (by simp), hown.keys]
    · rw [hsame _ (by simp [typedOptionNames]), hown.consistentRead]
    · rw [hsame _ (by simp [typedOptionNames]), hown.projection]
    · rw [hsame _ (by simp [typedOptionNames]), hown.projectionNames]

/-! ### What is read -/

/-- The members left over have other names. -/
theorem splitMembers_others {names : List String} (members : List (Json.Text × Json)) :
    ∀ {known others : List (Json.Text × Json)}, splitMembers names members = some (known, others) →
      ∀ k j, (.plain k, j) ∈ others → (.plain k, j) ∈ members ∧ k ∉ names := by
  induction members with
  | nil =>
      intro known others h k j hmem
      cases h
      cases hmem
  | cons m members ih =>
      intro known others h k j hmem
      obtain ⟨text, j'⟩ := m
      cases text with
      | broken codes bare => cases h
      | plain k' =>
          rw [splitMembers] at h
          obtain ⟨⟨known', others'⟩, hrest, hthis⟩ := Option.bind_eq_some_iff.mp h
          dsimp only at hthis
          by_cases hname : names.contains k'
          · rw [if_pos hname] at hthis
            cases hthis
            obtain ⟨hold, hother⟩ := ih hrest k j hmem
            exact ⟨List.mem_cons_of_mem _ hold, hother⟩
          · rw [if_neg hname] at hthis
            cases hthis
            rcases List.mem_cons.mp hmem with he | hlater
            · cases he
              exact ⟨List.mem_cons_self, by simpa using hname⟩
            · obtain ⟨hold, hother⟩ := ih hrest k j hlater
              exact ⟨List.mem_cons_of_mem _ hold, hother⟩

/-- What is read of a list was read of one of its items. -/
theorem exists_of_mem_mapM {α β : Type} {read : α → Option β} {b : β} (as : List α) :
    ∀ {bs : List β}, as.mapM read = some bs → b ∈ bs → ∃ a ∈ as, read a = some b := by
  induction as with
  | nil =>
      intro bs h hb
      cases h
      cases hb
  | cons a as ih =>
      intro bs h hb
      rw [List.mapM_cons] at h
      obtain ⟨b', hread, h⟩ := Option.bind_eq_some_iff.mp h
      obtain ⟨bs', hrest, h⟩ := Option.bind_eq_some_iff.mp h
      cases h
      rcases List.mem_cons.mp hb with rfl | hlater
      · exact ⟨a, List.mem_cons_self, hread⟩
      · obtain ⟨a', ha', hread'⟩ := ih hrest hlater
        exact ⟨a', List.mem_cons_of_mem _ ha', hread'⟩

theorem member?_eq_some_iff {α : Type} {read : Json → Option α} {m : Json.Text × Json} {k : String}
    {a : α} : member? read m = some (k, a) ↔ ∃ j, m = (.plain k, j) ∧ read j = some a := by
  obtain ⟨text, j⟩ := m
  cases text with
  | broken codes bare => simp [member?]
  | plain k' =>
      rw [member?, Option.map_eq_some_iff]
      constructor
      · rintro ⟨b, hread, he⟩
        cases he
        exact ⟨j, rfl, hread⟩
      · rintro ⟨j', he, hread⟩
        cases he
        exact ⟨a, hread, rfl⟩

/-- What a table that is read binds was read of a member with that name. -/
theorem exists_of_find?_mapM {α : Type} {read : Json → Option α} {members : List (Json.Text × Json)}
    {pairs : List (String × α)} (h : members.mapM (member? read) = some pairs) {k : String} {a : α}
    (hfind : (Entries.ofList pairs).find? k = some a) :
    ∃ j, (.plain k, j) ∈ members ∧ read j = some a := by
  have hmem : (k, a) ∈ pairs := Entries.mem_of_find?_ofList pairs hfind
  obtain ⟨m, hm, hread⟩ := exists_of_mem_mapM members h hmem
  obtain ⟨j, rfl, hj⟩ := member?_eq_some_iff.mp hread
  exact ⟨j, hm, hj⟩

/-- What is read as passed through is a member with that name, which is not the name of a typed
option. -/
theorem mem_of_optionsOfMembers? {members : List (Json.Text × Json)} {o : ReadOptions}
    (h : optionsOfMembers? members = some o) {name : String} {value : Datum}
    (hfind : o.extra.find? name = some value) :
    (∃ j, (.plain name, j) ∈ members) ∧ name ∉ typedOptionNames := by
  obtain ⟨⟨known, others⟩, hsplit, h⟩ := Option.bind_eq_some_iff.mp h
  obtain ⟨fields, -, h⟩ := Option.bind_eq_some_iff.mp h
  obtain ⟨consistent, -, h⟩ := Option.bind_eq_some_iff.mp h
  obtain ⟨projection, -, h⟩ := Option.bind_eq_some_iff.mp h
  obtain ⟨names, -, h⟩ := Option.bind_eq_some_iff.mp h
  obtain ⟨pairs, hpairs, h⟩ := Option.bind_eq_some_iff.mp h
  cases h
  obtain ⟨j, hother, -⟩ := exists_of_find?_mapM hpairs hfind
  obtain ⟨hmember, hname⟩ := splitMembers_others members hsplit name j hother
  exact ⟨⟨j, hmember⟩, hname⟩

/-- **What is read of a table is clear**: a member with a name of its own is never passed
through. -/
theorem clear_of_tableRequest? {j : Json} {r : TableRequest} (h : tableRequest? j = some r) :
    r.options.Clear := by
  cases j with
  | object members =>
      obtain ⟨⟨known, others⟩, hsplit, h⟩ := Option.bind_eq_some_iff.mp h
      obtain ⟨fields, -, h⟩ := Option.bind_eq_some_iff.mp h
      obtain ⟨keys, -, h⟩ := Option.bind_eq_some_iff.mp h
      obtain ⟨options, hoptions, h⟩ := Option.bind_eq_some_iff.mp h
      cases h
      intro name hname
      refine Option.eq_none_iff_forall_ne_some.mpr fun value hfind => ?_
      obtain ⟨⟨j, hother⟩, hnottyped⟩ := mem_of_optionsOfMembers? hoptions hfind
      obtain ⟨-, hnotkeys⟩ := splitMembers_others members hsplit name j hother
      rcases List.mem_cons.mp hname with rfl | htyped
      · exact hnotkeys List.mem_cons_self
      · exact hnottyped htyped
  | _ => cases h

theorem clear_of_request? {j : Json} {r : BatchRequest} (h : request? j = some r) : r.Clear := by
  obtain ⟨fields, -, h⟩ := Option.bind_eq_some_iff.mp h
  obtain ⟨tables, hrequired, h⟩ := Option.bind_eq_some_iff.mp h
  cases h
  obtain ⟨items, -, hread⟩ := Option.bind_eq_some_iff.mp hrequired
  cases items with
  | object members =>
      obtain ⟨pairs, hpairs, rfl⟩ := Option.map_eq_some_iff.mp hread
      intro table wanted hfind
      obtain ⟨j, -, hwanted⟩ := exists_of_find?_mapM hpairs hfind
      exact clear_of_tableRequest? hwanted
  | _ => cases hread

/-- A request is read back just when its options are clear. -/
theorem request?_ofRequest_iff {r : BatchRequest} :
    request? (ofRequest r) = some r ↔ r.Clear :=
  ⟨clear_of_request?, request?_ofRequest⟩

/-- **What is passed through leaves a request as it is unless it has the name of another member.**
Whatever calls build the options, the object of the table says what was asked for just when no call
passes an option through under the name of the key list or of a typed option, and the request is
read back just then. -/
theorem ofTable_faithful_iff (table : String) (keys : List NativeKey)
    (calls : List ReadOptions.Call) :
    ∃ entry, ofRequest (.ofTable table keys (.ofCalls calls)) =
        .ofMembers [("RequestItems", .ofMembers [(table, entry)])] ∧
      (Faithful keys (.ofCalls calls) entry ↔ ReadOptions.SparesMembers calls) ∧
      (request? (ofRequest (.ofTable table keys (.ofCalls calls))) =
        some (.ofTable table keys (.ofCalls calls)) ↔ ReadOptions.SparesMembers calls) := by
  refine ⟨ofTableRequest { keys, options := .ofCalls calls }, rfl, ?_, ?_⟩
  · exact (faithful_iff_clear { keys, options := .ofCalls calls }).trans
      (ReadOptions.clear_ofCalls_iff calls)
  · rw [request?_ofRequest_iff, BatchRequest.clear_ofTable_iff, ReadOptions.clear_ofCalls_iff]

/-- An empty list passed through as the key list: the object of the table says both, and the
request is not read back. -/
theorem keys_passed_through :
    let keys : List NativeKey := [.ofList [("id", .leaf (.text "a"))]]
    let options := ReadOptions.ofCalls [.option "Keys" (.list [])]
    let r := BatchRequest.ofTable "users" keys options
    named "Keys" (ofTableRequest { keys, options }) = [.list (keys.map ofNativeItem), .list []] ∧
      ¬ Faithful keys options (ofTableRequest { keys, options }) ∧
      request? (ofRequest r) = none := by
  intro keys options r
  have hkeys : named "Keys" (ofTableRequest { keys, options }) =
      [.list (keys.map ofNativeItem), .list []] := rfl
  refine ⟨hkeys, fun h => ?_, rfl⟩
  have honce := h.once "Keys"
  rw [hkeys] at honce
  simp at honce

end Wire

end ItemStore
