/-
What is loaded into the store is found under its own key.

An item comes into a table with every attribute encoded; its key is encoded by itself, from
the hash value and the range value alone.  Both encodings ask the schema for the type of each
attribute by name, so a key comes out as the key attributes of the stored item and nothing
else (`NativeKey.Picks`).  A key of that kind matches a stored item exactly if it is the item's
own key (`Picks.matchesKey_iff`): what is lost in encoding is lost on both sides.

So looking up the key of a loaded item finds the first item that was loaded with this key, and
a fetch of all keys gives these items one by one, with every attribute as it reads back.
-/
import ItemStore.Proofs.Batch.Course
import ItemStore.Proofs.StoreFetch
import ItemStore.Proofs.Tree

namespace ItemStore

/-- What is to be known of the key of an item, from the item itself. -/
def Item.keyRecord? (schema : Schema) (item : Item) : Option KeyRecord := do
  let hash ← item.find? schema.hashKey
  match schema.rangeKey with
  | some name => return { hash, range := some (← item.find? name) }
  | none => return { hash }

/-- An item as it reads back: every attribute encoded under the schema and decoded. -/
def Item.reread (schema : Schema) (item : Item) : Except Error Item :=
  item.mapM fun name v => Attribute.decode <$> Encoding.encode (schema.datatype? name) v

/-- If something is found for every member of a list, it is found in the order of the list. -/
theorem map_some_filterMap {α β : Type} {f : α → Option β} {l : List α}
    (h : ∀ a ∈ l, (f a).isSome = true) : (l.filterMap f).map some = l.map f := by
  rw [List.map_filterMap_some_eq_filter_map_isSome, List.filter_eq_self]
  intro o ho
  obtain ⟨a, ha, rfl⟩ := List.mem_map.mp ho
  exact h a ha

/-! ### Keys and the items they match -/

/-- A key that consists of the attributes of an item under these names. -/
structure NativeKey.Picks (names : List String) (key : NativeKey) (native : NativeItem) :
    Prop where
  present : ∀ name ∈ names, ∃ a, key.find? name = some a
  own : ∀ name a, key.find? name = some a → name ∈ names ∧ native.find? name = some a

theorem Store.matchesKey_iff {key : NativeKey} {native : NativeItem} :
    matchesKey key native = true ↔
      ∀ name a, key.find? name = some a → native.find? name = some a := by
  simp only [matchesKey, List.all_eq_true, Prod.forall, Entries.mem_toList_iff, beq_iff_eq]

namespace NativeKey.Picks

variable {names : List String} {key key' : NativeKey} {native native' : NativeItem}

theorem empty : Picks [] ∅ native :=
  ⟨by simp, fun name a h => by cases h⟩

/-- One more attribute of the item is put into the key. -/
theorem insert (h : Picks names key native) {name : String} {a : Attribute}
    (ha : native.find? name = some a) : Picks (name :: names) (key.insert name a) native := by
  constructor
  · intro n hn
    rw [Entries.find?_insert]
    by_cases hname : n = name
    · exact ⟨a, if_pos hname⟩
    · obtain ⟨b, hb⟩ := h.present n ((List.mem_cons.mp hn).resolve_left hname)
      exact ⟨b, by rw [if_neg hname, hb]⟩
  · intro n b hb
    rw [Entries.find?_insert] at hb
    by_cases hname : n = name
    · rw [if_pos hname] at hb
      cases hb
      exact ⟨by simp [hname], hname ▸ ha⟩
    · rw [if_neg hname] at hb
      obtain ⟨hn, hnative⟩ := h.own n b hb
      exact ⟨List.mem_cons_of_mem _ hn, hnative⟩

/-- **A key matches the items whose own key it is**, and no others. -/
theorem matchesKey_iff (h : Picks names key native) (h' : Picks names key' native') :
    Store.matchesKey key native' = true ↔ key' = key := by
  rw [Store.matchesKey_iff]
  constructor
  · intro hmatch
    refine Entries.ext fun name => Option.ext fun a => ?_
    -- Both keys have these attributes and no others, and the item has one value for each.
    constructor
    · intro ha
      obtain ⟨hname, hnative⟩ := h'.own name a ha
      obtain ⟨b, hb⟩ := h.present name hname
      rw [hb, ← hmatch name b hb, hnative]
    · intro ha
      obtain ⟨b, hb⟩ := h'.present name (h.own name a ha).1
      rw [hb, ← (h'.own name b hb).2, hmatch name a ha]
  · rintro rfl name a ha
    exact (h'.own name a ha).2

/-- The first item that a key matches is the first that has it as its own. -/
theorem find?_matchesKey (h : Picks names key native) {keys : List NativeKey}
    {natives : List NativeItem} (hkeys : List.Forall₂ (Picks names) keys natives) :
    natives.find? (Store.matchesKey key) = natives[keys.idxOf key]? := by
  induction hkeys with
  | nil => rfl
  | @cons key' native' keys natives h' _ ih =>
      by_cases heq : key' = key
      · rw [List.find?_cons_of_pos ((h.matchesKey_iff h').mpr heq), heq, List.idxOf_cons_self]
        rfl
      · have hmatch : ¬ Store.matchesKey key native' = true := by
          rwa [h.matchesKey_iff h']
        rw [List.find?_cons_of_neg hmatch, List.idxOf_cons_ne _ heq, List.getElem?_cons_succ, ih]

end NativeKey.Picks

/-! ### The key of a stored item -/

/-- The names of the attributes that make up a key. -/
def Schema.keyNames (schema : Schema) : List String :=
  schema.rangeKey.toList ++ [schema.hashKey]

namespace Encoding

variable {schema : Schema}

/-- An attribute is encoded in the item as it would be by itself. -/
theorem find?_of_encodeItem {item : Item} {native : NativeItem}
    (h : encodeItem schema item = .ok native) {name : String} {v : Value}
    (hv : item.find? name = some v) :
    ∃ a, native.find? name = some a ∧ encode (schema.datatype? name) v = .ok a := by
  have hrel := Entries.find?_of_mapM h name
  rw [hv] at hrel
  cases hfound : native.find? name with
  | none =>
      rw [hfound] at hrel
      cases hrel
  | some a =>
      rw [hfound] at hrel
      cases hrel with
      | some ha => exact ⟨a, rfl, ha⟩

/-- **The key made of an item's own values is that of the stored item.** -/
theorem picks_of_encodeItem {item : Item} {native : NativeItem}
    (h : encodeItem schema item = .ok native) {record : KeyRecord}
    (hrecord : Item.keyRecord? schema item = some record) :
    ∃ key, buildKey schema record = .ok key ∧ NativeKey.Picks schema.keyNames key native := by
  obtain ⟨hash, hhash, hrest⟩ := Option.bind_eq_some_iff.mp hrecord
  obtain ⟨a, ha, hencode⟩ := find?_of_encodeItem h hhash
  have hpicks := NativeKey.Picks.empty.insert ha
  unfold buildKey Schema.keyNames
  cases hrange : schema.rangeKey with
  | none =>
      rw [hrange] at hrest
      cases hrest
      exact ⟨_, bind_eq_ok.mpr ⟨a, hencode, rfl⟩, hpicks⟩
  | some name =>
      rw [hrange] at hrest
      obtain ⟨range, hrangeValue, he⟩ := Option.bind_eq_some_iff.mp hrest
      cases he
      obtain ⟨b, hb, hencodeRange⟩ := find?_of_encodeItem h hrangeValue
      exact ⟨_, bind_eq_ok.mpr ⟨a, hencode, bind_eq_ok.mpr ⟨b, hencodeRange, rfl⟩⟩,
        hpicks.insert hb⟩

/-- The records of items have the keys of what is stored for them. -/
theorem picks_of_mapM {items : List Item} {natives : List NativeItem}
    (h : List.Forall₂ (fun item native => encodeItem schema item = .ok native) items natives) :
    ∀ {records : List KeyRecord}, items.map (Item.keyRecord? schema) = records.map some →
      ∃ keys, records.mapM (buildKey schema) = .ok keys ∧
        List.Forall₂ (NativeKey.Picks schema.keyNames) keys natives := by
  induction h with
  | nil =>
      intro records hrecords
      rw [List.map_nil, eq_comm, List.map_eq_nil_iff] at hrecords
      subst hrecords
      exact ⟨[], rfl, .nil⟩
  | cons hitem _ ih =>
      intro records hrecords
      cases records with
      | nil => cases hrecords
      | cons record records =>
          rw [List.map_cons, List.map_cons, List.cons.injEq] at hrecords
          obtain ⟨key, hkey, hpicks⟩ := picks_of_encodeItem hitem hrecords.1
          obtain ⟨keys, hkeys, hall⟩ := ih hrecords.2
          refine ⟨key :: keys, ?_, .cons hpicks hall⟩
          rw [List.mapM_cons, hkey, hkeys]
          rfl

/-- An item reads back as what is stored for it decodes. -/
theorem reread_of_encodeItem {item : Item} {native : NativeItem}
    (h : encodeItem schema item = .ok native) : item.reread schema = .ok native.decode := by
  unfold Item.reread
  rw [Entries.mapM_comp]
  exact map_eq_ok.mpr ⟨native, h, rfl⟩

end Encoding

/-! ### Loading -/

namespace Store

/-- Loading puts the items, encoded, at the end of the table. -/
theorem load_eq_ok {table : String} {schema : Schema} {items : List Item} :
    ∀ {s s' : Store}, s.load table schema items = (s', .ok ()) →
      ∃ natives, items.mapM (Encoding.encodeItem schema) = .ok natives ∧
        (s'.tables.find? table).getD [] = (s.tables.find? table).getD [] ++ natives := by
  induction items with
  | nil =>
      intro s s' h
      cases h
      exact ⟨[], rfl, (List.append_nil _).symm⟩
  | cons item items ih =>
      intro s s' h
      rw [load] at h
      cases hencode : Encoding.encodeItem schema item with
      | error e =>
          rw [hencode] at h
          cases h
      | ok native =>
          rw [hencode] at h
          obtain ⟨natives, hnatives, htable⟩ := ih h
          refine ⟨native :: natives, ?_, ?_⟩
          · rw [List.mapM_cons, hencode, hnatives]
            rfl
          · rw [htable]
            simp [insert]

/-- **Looking up the key of a loaded item finds the first item that was loaded with this key.** -/
theorem firstMatch_of_load {table : String} {schema : Schema} {items : List Item}
    {records : List KeyRecord} {s s' : Store} (hempty : (s.tables.find? table).getD [] = [])
    (hloaded : s.load table schema items = (s', .ok ()))
    (hrecords : items.map (Item.keyRecord? schema) = records.map some) :
    ∃ keys natives, records.mapM (Encoding.buildKey schema) = .ok keys ∧
      items.mapM (Encoding.encodeItem schema) = .ok natives ∧ keys.length = natives.length ∧
      ∀ key ∈ keys, firstMatch s'.tables table key = natives[keys.idxOf key]? := by
  obtain ⟨natives, hnatives, htable⟩ := load_eq_ok hloaded
  rw [hempty, List.nil_append] at htable
  obtain ⟨keys, hkeys, hpicks⟩ := Encoding.picks_of_mapM (mapM_eq_ok_iff.mp hnatives) hrecords
  refine ⟨keys, natives, hkeys, hnatives, hpicks.length_eq, fun key hkey => ?_⟩
  obtain ⟨native, -, hown⟩ := exists_of_forall₂ hpicks.flip key hkey
  unfold firstMatch
  rw [htable]
  exact hown.find?_matchesKey hpicks

end Store

namespace Getter

variable {config : BatchConfig} {options : ReadOptions} {session : Session Store}

/-- Getting takes enough steps for the store to answer every key. -/
theorem get_of_buildKeys {name : String} {schema : Schema} {records : List KeyRecord}
    {keys : List NativeKey} (hkeys : records.mapM (Encoding.buildKey schema) = .ok keys)
    {r : Except Error (List Item)} :
    let getter : Getter Item := { table := .plain name schema, config }
    (∀ n s, Fetch.Reaches (getter.planFor keys options) Store.transport
        (getter.startFor session keys options) n s →
      s.failure = none ∧ n ≤ 2 * session.store.failures.length + 3 * keys.length ∧
        (s.flights = [] → s.result? = some r)) →
      (getter.get Store.transport session records options).2 = some r := by
  intro getter hevery
  obtain ⟨n, s, hreach, hend, hget⟩ := getWithin_reaches (g := getter) hkeys
    (2 * session.store.failures.length + 3 * records.length + 1) Store.transport session options
  obtain ⟨hgoing, hsteps, hresult⟩ := hevery n s hreach
  have hlength : records.length = keys.length := (mapM_eq_ok_iff.mp hkeys).length_eq
  rw [get]
  show (getter.getWithin (2 * session.store.failures.length + 3 * records.length + 1) _ _ _ _).2 = _
  rw [hget]
  refine hresult ?_
  rcases hend with hn | hfailed | hflights
  · omega
  · exact absurd hgoing hfailed
  · exact hflights

/-- **What is loaded can be fetched by its own key.**

The records made of the items' own values have keys, and a fetch of these gives for each the
first item that was loaded with this key, as it reads back.  If no two items have the same key,
these are all items in order.  `get` takes one order of the steps of the fetch; every other
comes to the same end. -/
theorem get_loaded (name : String) (schema : Schema) (config : BatchConfig)
    (options : ReadOptions) (before : Store) (session : Session Store) (items : List Item)
    (records : List KeyRecord) (hempty : (before.tables.find? name).getD [] = [])
    (hloaded : before.load name schema items = (session.store, .ok ()))
    (hrecords : items.map (Item.keyRecord? schema) = records.map some)
    (huncapped : config.retry.maxRetries = none)
    (hlimit : session.store.pageLimit ≠ some 0)
    (hretryable : ∀ e ∈ session.store.failures, e.isRetryable = true) :
    let getter : Getter Item := { table := .plain name schema, config }
    ∃ keys held found,
      records.mapM (Encoding.buildKey schema) = .ok keys ∧
      items.mapM (Item.reread schema) = .ok held ∧
      keys.map (fun key => held[keys.idxOf key]?) = found.map some ∧
      (keys.Nodup → found = held) ∧
      (getter.get Store.transport session records options).2 = some (.ok found) ∧
      ∀ n s, Fetch.Reaches (getter.planFor keys options) Store.transport
          (getter.startFor session keys options) n s →
        s.failure = none ∧ n ≤ 2 * session.store.failures.length + 3 * keys.length ∧
          (s.flights = [] → s.result? = some (.ok found)) := by
  intro getter
  obtain ⟨keys, natives, hkeys, hnatives, hlength, hmatch⟩ :=
    Store.firstMatch_of_load hempty hloaded hrecords
  -- No key is without its item, so the items found stand in the places of the keys.
  obtain ⟨first, hfirst⟩ : ∃ first, first =
    keys.filterMap (Store.firstMatch session.store.tables name) := ⟨_, rfl⟩
  have hplaces : first.map some = keys.map fun key => natives[keys.idxOf key]? := by
    rw [hfirst, map_some_filterMap]
    · exact List.map_congr_left hmatch
    · intro key hkey
      rw [hmatch key hkey, isSome_getElem?, ← hlength]
      exact List.idxOf_lt_length_iff.mpr hkey
  have hevery : ∀ n s, Fetch.Reaches (getter.planFor keys options) Store.transport
      (getter.startFor session keys options) n s →
      s.failure = none ∧ n ≤ 2 * session.store.failures.length + 3 * keys.length ∧
        (s.flights = [] → s.result? = some (.ok (first.map NativeItem.decode))) := by
    intro n s h
    rw [hfirst]
    exact Fetch.reaches_store (plan_concurrency_pos getter _) huncapped hlimit hretryable
      (mapM_buildModel_plain name schema config) h
  refine ⟨keys, natives.map NativeItem.decode, first.map NativeItem.decode, hkeys, ?_, ?_,
    fun hnodup => ?_, get_of_buildKeys hkeys hevery, hevery⟩
  · rw [mapM_eq_ok_iff, List.forall₂_map_right_iff]
    exact (mapM_eq_ok_iff.mp hnatives).imp fun item native => Encoding.reread_of_encodeItem
  · calc keys.map (fun key => (natives.map NativeItem.decode)[keys.idxOf key]?)
        = (keys.map fun key => natives[keys.idxOf key]?).map (Option.map NativeItem.decode) := by
          simp [Function.comp_def]
      _ = (first.map NativeItem.decode).map some := by
          rw [← hplaces]
          simp [Function.comp_def]
  · refine congrArg _ (List.map_injective_iff.mpr (Option.some_injective _) ?_)
    rw [hplaces]
    refine List.ext_getElem (by simpa using hlength) fun i hi hi' => ?_
    simp only [List.length_map] at hi hi'
    simp [hnodup.idxOf_getElem, hi']

/-- A number and a date as the key, written in two ways each, so that the first two items have
one key; in buckets of two, one key to a page, and a failure to come. -/
theorem get_loaded_composite :
    let schema := (Schema.ofHashKey "id" .number).withRangeKey "at" .date
    let item (id time : Value) (label : String) : Item :=
      .ofList [("id", id), ("at", time), ("label", .text label)]
    let leapDay := "2000-02-29T00:00:00.000Z"
    let items := [item (.leaf (.number " 7")) (.date ⟨951782400, 0, by decide⟩) "one",
      item (.text "7") (.text leapDay) "two", item (.text "8 ") (.text leapDay) "three"]
    let records := items.filterMap (Item.keyRecord? schema)
    let before : Store := { failures := [.throttled "slow down"], pageLimit := some 1 }
    let session : Session Store := { store := (before.load "events" schema items).1 }
    let config : BatchConfig := { maxBatchSize := 2 }
    let read (id label : String) : Item :=
      item (.leaf (.number id)) (.text leapDay) label
    before.load "events" schema items = (session.store, .ok ()) ∧
      items.map (Item.keyRecord? schema) = records.map some ∧
      config.retry.maxRetries = none ∧ session.store.pageLimit ≠ some 0 ∧
      (∀ e ∈ session.store.failures, e.isRetryable = true) ∧
      (get { table := .plain "events" schema, config } Store.transport session records ∅).2 =
        some (.ok [read "7" "one", read "7" "one", read "8" "three"]) := by
  intro schema item leapDay items records before session config read
  have hloaded : before.load "events" schema items = (session.store, .ok ()) :=
    Prod.ext rfl (by decide +kernel)
  have hrecords : items.map (Item.keyRecord? schema) = records.map some := by decide +kernel
  have hlimit : session.store.pageLimit ≠ some 0 := by decide +kernel
  have hretryable : ∀ e ∈ session.store.failures, e.isRetryable = true := by
    have hfailures : session.store.failures = [.throttled "slow down"] := by decide +kernel
    rw [hfailures]
    simp [Error.isRetryable]
  refine ⟨hloaded, hrecords, rfl, hlimit, hretryable, ?_⟩
  obtain ⟨keys, held, found, hkeys, hheld, hfound, -, hget, -⟩ := get_loaded "events" schema config ∅
    before session items records rfl hloaded hrecords rfl hlimit hretryable
  have hitems : items.mapM (Item.reread schema) =
      .ok [read "7" "one", read "7" "two", read "8" "three"] := by decide +kernel
  cases hitems.symm.trans hheld
  let key (id : String) : NativeKey :=
    .ofList [("id", .leaf (.number id)), ("at", .leaf (.text leapDay))]
  have hnatives : records.mapM (Encoding.buildKey schema) = .ok [key "7", key "7", key "8"] := by
    decide +kernel
  cases hnatives.symm.trans hkeys
  have hplaces : ([key "7", key "7", key "8"].map fun k =>
      [read "7" "one", read "7" "two", read "8" "three"][[key "7", key "7", key "8"].idxOf k]?) =
      [read "7" "one", read "7" "one", read "8" "three"].map some := by decide +kernel
  have hsame := List.map_injective_iff.mpr (Option.some_injective _) (hfound.symm.trans hplaces)
  rw [hget, hsame]

end Getter

end ItemStore
