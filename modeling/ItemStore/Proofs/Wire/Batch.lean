/-
Requests and replies are read back as they were written.

What is said is about JSON as a value: how a value is spelled, and how deep a reader of texts goes,
is left aside.  The keys of a table, its typed options and those that are passed through are members
of one object, and are told apart by their names alone.  So they are read back if no option that is
passed through has the name of another member (`ReadOptions.Clear`): splitting the members by name
then gives just those that were put together (`splitMembers_plain`), and what is known of them is
the table of those that were written (`knownMembers_plain`), where one that was left out is not
found.
-/
import ItemStore.Proofs.Wire.Tree
import ItemStore.Wire.Batch

namespace ItemStore

/-- No option that is passed through has the name of another member. -/
def ReadOptions.Clear (o : ReadOptions) : Prop :=
  ∀ name ∈ "Keys" :: Wire.typedOptionNames, o.extra.find? name = none

/-- The options of all tables are clear. -/
def BatchRequest.Clear (r : BatchRequest) : Prop :=
  ∀ table wanted, r.tables.find? table = some wanted → wanted.options.Clear

/-- The options of all tables that were left are clear. -/
def BatchResponse.Clear (r : BatchResponse) : Prop :=
  ∀ tables, r.unprocessed = some tables → BatchRequest.Clear { tables }

theorem ReadOptions.clear_empty : (∅ : ReadOptions).Clear :=
  fun _ _ => rfl

theorem ReadOptions.Clear.withOption {o : ReadOptions} (h : o.Clear) {name : String}
    (hname : name ∉ "Keys" :: Wire.typedOptionNames) (value : Datum) :
    (o.withOption name value).Clear := by
  intro k hk
  have hne : k ≠ name := fun he => hname (he ▸ hk)
  rw [ReadOptions.withOption, Entries.find?_insert, if_neg hne]
  exact h k hk

theorem BatchRequest.clear_ofTable {options : ReadOptions} (h : options.Clear) (name : String)
    (keys : List NativeKey) : (ofTable name keys options).Clear := by
  intro table wanted hfind
  rw [ofTable, Entries.find?_insert] at hfind
  split at hfind
  · cases hfind
    exact h
  · cases hfind

namespace Wire

/-! ### Members told apart by their names -/

/-- Members that were put together are told apart by their names. -/
theorem splitMembers_plain {names : List String} (known : List (String × Json))
    {others : List (String × Json)} (hknown : ∀ m ∈ known, m.1 ∈ names)
    (hothers : ∀ m ∈ others, m.1 ∉ names) :
    splitMembers names ((known ++ others).map plain) =
      some (known.map plain, others.map plain) := by
  induction known with
  | nil =>
      rw [List.nil_append]
      induction others with
      | nil => rfl
      | cons m others ih =>
          have hm := hothers m List.mem_cons_self
          rw [List.map_cons, plain, splitMembers,
            ih fun m' hm' => hothers m' (List.mem_cons_of_mem _ hm')]
          simp [hm]
  | cons m known ih =>
      have hm := hknown m List.mem_cons_self
      rw [List.cons_append, List.map_cons, plain, splitMembers,
        ih fun m' hm' => hknown m' (List.mem_cons_of_mem _ hm')]
      simp [hm, plain]

/-- Members of the names asked for are all found, if none comes twice. -/
theorem knownMembers_plain {names : List String} (members : List (String × Json)) :
    ∀ {found : Dict Json}, (∀ m ∈ members, m.1 ∈ names) → (members.map (·.1)).Nodup →
      (∀ m ∈ members, found.find? m.1 = none) →
      knownMembers names (members.map plain) found = some (found.extend members) := by
  induction members with
  | nil => intro found _ _ _; rfl
  | cons m members ih =>
      intro found hnames hnodup hfree
      obtain ⟨hm, hrest⟩ := List.nodup_cons.mp hnodup
      have hlater : ∀ m' ∈ members, (found.insert m.1 m.2).find? m'.1 = none := by
        intro m' hm'
        have hne : m'.1 ≠ m.1 := fun he => hm (List.mem_map.mpr ⟨m', hm', he⟩)
        rw [Entries.find?_insert, if_neg hne]
        exact hfree m' (List.mem_cons_of_mem _ hm')
      have hknown : names.contains m.1 = true := by simpa using hnames m List.mem_cons_self
      rw [List.map_cons, plain, knownMembers, if_pos hknown, hfree m List.mem_cons_self]
      exact ih (fun m' hm' => hnames m' (List.mem_cons_of_mem _ hm')) hrest hlater

/-- A field is read as it was written or left out. -/
theorem optional_eq_some {α : Type} {fields : Dict Json} {name : String} {read : Json → Option α}
    {write : α → Json} {a? : Option α} (hfind : fields.find? name = a?.map write)
    (hwritten : ∀ a, write a ≠ .null) (hread : ∀ a, a? = some a → read (write a) = some a) :
    optional fields name read = some a? := by
  rw [optional, hfind]
  cases a? with
  | none => rfl
  | some a =>
      have hnullable : nullable? read (write a) = (read (write a)).map some := by
        unfold nullable?
        split
        · exact absurd ‹_› (hwritten a)
        · rfl
      rw [Option.map_some]
      exact hnullable.trans (by rw [hread a rfl]; rfl)

/-! ### Options -/

theorem mem_typedOptionNames {o : ReadOptions} {m : String × Json} (h : m ∈ typedOptions o) :
    m.1 ∈ typedOptionNames := by
  simp only [typedOptions, List.mem_append, Option.mem_toList, Option.map_eq_some_iff] at h
  rcases h with (⟨b, -, rfl⟩ | ⟨s, -, rfl⟩) | ⟨d, -, rfl⟩
  all_goals simp [typedOptionNames]

theorem nodup_typedOptions (o : ReadOptions) : ((typedOptions o).map (·.1)).Nodup := by
  obtain ⟨consistent, projection, names, extra⟩ := o
  cases consistent <;> cases projection <;> cases names <;> simp [typedOptions]

/-- What is found of the typed options: those that are set. -/
theorem find?_typedOptions (o : ReadOptions) :
    ∃ fields, knownMembers typedOptionNames ((typedOptions o).map plain) ∅ = some fields ∧
      fields.find? "ConsistentRead" = o.consistentRead.map .bool ∧
      fields.find? "ProjectionExpression" = o.projection.map .str ∧
      fields.find? "ExpressionAttributeNames" = o.projectionNames.map (ofDict .str) := by
  have hfree : ∀ name, (∅ : Dict Json).find? name = none := fun _ => rfl
  refine ⟨_, knownMembers_plain (typedOptions o) (fun m hm => mem_typedOptionNames hm)
    (nodup_typedOptions o) fun m _ => hfree m.1, ?_⟩
  obtain ⟨consistent, projection, names, extra⟩ := o
  cases consistent <;> cases projection <;> cases names <;>
    simp [typedOptions, Entries.find?_insert, hfree]

/-- What is passed through has none of the names of the other members. -/
theorem not_mem_of_clear {o : ReadOptions} (h : o.Clear) {m : String × Json}
    (hm : m ∈ o.extra.toList.map fun (k, d) => (k, ofDatum d)) :
    m.1 ∉ "Keys" :: typedOptionNames := by
  obtain ⟨p, hp, rfl⟩ := List.mem_map.mp hm
  intro hname
  have hnone := h p.1 hname
  rw [(Entries.mem_toList_iff o.extra).mp hp] at hnone
  cases hnone

/-- **Options are read back if they are clear.** -/
theorem optionsOfMembers?_optionMembers {o : ReadOptions} (h : o.Clear) :
    optionsOfMembers? ((optionMembers o).map plain) = some o := by
  obtain ⟨fields, hfields, hconsistent, hprojection, hnames⟩ := find?_typedOptions o
  have hsplit := splitMembers_plain (typedOptions o) (fun m hm => mem_typedOptionNames hm)
    fun m hm hname => not_mem_of_clear h hm (List.mem_cons_of_mem _ hname)
  have hextra : ((o.extra.toList.map fun (k, d) => (k, ofDatum d)).map plain).mapM
      (member? datum?) = some o.extra.toList := by
    rw [List.map_map]
    exact mapM_member?_eq_some fun p _ => datum?_ofDatum p.2
  have hconsistent : optional fields "ConsistentRead" bool? = some o.consistentRead :=
    optional_eq_some hconsistent (fun _ => nofun) fun _ _ => rfl
  have hprojection : optional fields "ProjectionExpression" text? = some o.projection :=
    optional_eq_some hprojection (fun _ => nofun) fun _ _ => rfl
  have hnames : optional fields "ExpressionAttributeNames" (dict? text?) = some o.projectionNames :=
    optional_eq_some hnames (fun _ => nofun) fun _ _ => dict?_ofDict fun _ _ => rfl
  rw [optionsOfMembers?, optionMembers, hsplit]
  simp only [Option.bind_eq_bind, Option.bind_some, hfields, hextra, hconsistent, hprojection,
    hnames, Entries.ofList_toList]
  rfl

/-! ### Requests and replies -/

/-- **What is wanted of a table is read back if its options are clear.** -/
theorem tableRequest?_ofTableRequest {r : TableRequest} (h : r.options.Clear) :
    tableRequest? (ofTableRequest r) = some r := by
  have hothers : ∀ m ∈ optionMembers r.options, m.1 ∉ ["Keys"] := by
    intro m hm hname
    have hkey : m.1 = "Keys" := List.mem_singleton.mp hname
    rcases List.mem_append.mp hm with htyped | hextra
    · have htyped : "Keys" ∈ typedOptionNames := hkey ▸ mem_typedOptionNames htyped
      exact absurd htyped (by decide)
    · exact not_mem_of_clear h hextra (hkey ▸ List.mem_cons_self)
  have hfirst : ∀ m ∈ [("Keys", Json.list (r.keys.map ofNativeItem))], m.1 ∈ ["Keys"] := by
    simp
  have hsplit := splitMembers_plain _ hfirst hothers
  have hkeys : list? nativeItem? (.list (r.keys.map ofNativeItem)) = some r.keys :=
    list?_list fun item _ => nativeItem?_ofNativeItem item
  rw [List.singleton_append] at hsplit
  rw [ofTableRequest, ofMembers_eq, tableRequest?, hsplit]
  show ((list? nativeItem? (.list (r.keys.map ofNativeItem))).bind fun keys =>
    (optionsOfMembers? ((optionMembers r.options).map plain)).bind fun options =>
      some ({ keys, options } : TableRequest)) = some r
  rw [hkeys, optionsOfMembers?_optionMembers h]
  rfl

theorem dict?_ofTableRequest {tables : Dict TableRequest} (h : BatchRequest.Clear { tables }) :
    dict? tableRequest? (ofDict ofTableRequest tables) = some tables :=
  dict?_ofDict fun p hp =>
    tableRequest?_ofTableRequest (h p.1 p.2 ((Entries.mem_toList_iff tables).mp hp))

theorem request?_ofRequest {r : BatchRequest} (h : r.Clear) : request? (ofRequest r) = some r := by
  show ((dict? tableRequest? (ofDict ofTableRequest r.tables)).bind fun tables =>
    some ({ tables } : BatchRequest)) = some r
  rw [dict?_ofTableRequest h]
  rfl

theorem response?_ofResponse {r : BatchResponse} (h : r.Clear) :
    response? (ofResponse r) = some r := by
  obtain ⟨items, unprocessed⟩ := r
  have hitems : dict? (list? nativeItem?)
      (ofDict (fun items => .list (items.map ofNativeItem)) items) = some items :=
    dict?_ofDict fun p _ => list?_list fun item _ => nativeItem?_ofNativeItem item
  cases unprocessed with
  | none =>
      show ((dict? (list? nativeItem?)
        (ofDict (fun items => .list (items.map ofNativeItem)) items)).bind fun items =>
          some ({ items } : BatchResponse)) = _
      rw [hitems]
      rfl
  | some tables =>
      show ((dict? (list? nativeItem?)
        (ofDict (fun items => .list (items.map ofNativeItem)) items)).bind fun items =>
          ((dict? tableRequest? (ofDict ofTableRequest tables)).map some).bind fun unprocessed =>
            some ({ items, unprocessed } : BatchResponse)) = _
      rw [hitems, dict?_ofTableRequest (h tables rfl)]
      rfl

/-- **Requests and replies are read back if their options are clear**, however deep the data in
them is nested. -/
theorem batch_read_back :
    (∀ r : BatchRequest, r.Clear → request? (ofRequest r) = some r) ∧
      ∀ r : BatchResponse, r.Clear → response? (ofResponse r) = some r :=
  ⟨fun _ h => request?_ofRequest h, fun _ h => response?_ofResponse h⟩

/-- A request with every kind of option, and a reply that leaves this request over and has data of
every kind. -/
theorem batch_read_back_nested :
    let key : NativeKey := .ofList [("id", .leaf (.number "7")), ("at", .leaf (.text "x"))]
    let options := (((∅ : ReadOptions).withConsistentRead false).withProjection "#a.b"
      (.ofList [("#a", "a")])).withOption "Trace" (.list [.leaf .null, .leaf (.integer (-1))])
    let request := BatchRequest.ofTable "events" [key] options
    let item : NativeItem := .ofList [
      ("flags", .list [.leaf (.bool true), .leaf (.null false), .leaf (.null true)]),
      ("inner", .record (.ofList [("L", .list [.record (.ofList [("M", .list [])])]),
        ("bytes", .leaf (.bytes [0, 255]))])),
      ("sets", .list [.leaf (.textSet ["a", ""]), .leaf (.numberSet ["1"]),
        .leaf (.byteSet [[], [10]])])]
    let response : BatchResponse :=
      { items := .ofList [("events", [item, ∅])], unprocessed := some request.tables }
    request.Clear ∧ response.Clear ∧ request? (ofRequest request) = some request ∧
      response? (ofResponse response) = some response := by
  intro key options request item response
  have hoptions : options.Clear :=
    ReadOptions.clear_empty.withOption (by decide) _
  have hrequest : request.Clear := BatchRequest.clear_ofTable hoptions _ _
  have hresponse : response.Clear := by
    intro tables htables
    cases htables
    exact hrequest
  exact ⟨hrequest, hresponse, batch_read_back.1 request hrequest,
    batch_read_back.2 response hresponse⟩

end Wire

end ItemStore
