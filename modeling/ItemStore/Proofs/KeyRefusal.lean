/-
Which records have no key, and what becomes of a fetch that is given one.

A record is refused for its hash value, which is encoded first; for a range value that is missing
or is not expected, whatever it is; or for a range value that is not encoded
(`Encoding.buildKey_eq_error_iff`).  What is not refused has a key, with the attributes the schema
names and no others.

A fetch builds the keys of all its buckets before it sends a call.  Written bucket by bucket this
is a loop in a loop, each of which stops at its first failure.  It fails as one loop through the
records does, wherever the buckets end (`mapM_buckets`).  So of several bad records the first in
the list is the one that is reported, and the session the fetch was given is the one it leaves.
-/
import ItemStore.Proofs.Batch.Buckets
import ItemStore.Proofs.Batch.Order
import ItemStore.Proofs.Dict

namespace ItemStore

/-- A record for which no key is built, and the failure. -/
inductive KeyRecord.Refused (schema : Schema) (record : KeyRecord) : Error → Prop
  /-- The hash value is not encoded under its declared type. -/
  | hash {e : Error}
      (rejected : Encoding.encode (schema.datatype? schema.hashKey) record.hash = .error e) :
      Refused schema record e
  /-- There is no range value, and the table has a range key. -/
  | missing {name : String} {a : Attribute}
      (hash : Encoding.encode (schema.datatype? schema.hashKey) record.hash = .ok a)
      (ranged : schema.rangeKey = some name) (absent : record.range = none) :
      Refused schema record (.argument (.missingRange name))
  /-- There is a range value, and the table has no range key. -/
  | unexpected {v : Value} {a : Attribute}
      (hash : Encoding.encode (schema.datatype? schema.hashKey) record.hash = .ok a)
      (unranged : schema.rangeKey = none) (present : record.range = some v) :
      Refused schema record (.argument .unexpectedRange)
  /-- The range value is not encoded under its declared type. -/
  | range {name : String} {v : Value} {a : Attribute} {e : Error}
      (hash : Encoding.encode (schema.datatype? schema.hashKey) record.hash = .ok a)
      (ranged : schema.rangeKey = some name) (present : record.range = some v)
      (rejected : Encoding.encode (schema.datatype? name) v = .error e) :
      Refused schema record e

theorem Schema.isKey_iff {schema : Schema} {name : String} :
    schema.isKey name = true ↔ name = schema.hashKey ∨ schema.rangeKey = some name := by
  rw [Schema.isKey, Bool.or_eq_true, beq_iff_eq, beq_iff_eq, @eq_comm _ name]

/-- What a key is that is built of a record. -/
structure NativeKey.BuiltOf (schema : Schema) (record : KeyRecord) (key : NativeKey) : Prop where
  /-- It binds the attributes of the key, and no others. -/
  names : ∀ name, name ∈ key.keys ↔ schema.isKey name = true
  /-- The range attribute is bound to the range value. -/
  range : ∀ name, schema.rangeKey = some name → ∃ v a, record.range = some v ∧
    Encoding.encode (schema.datatype? name) v = .ok a ∧ key.find? name = some a
  /-- The hash attribute is bound to the hash value, unless it is the range attribute as well. -/
  hash : schema.rangeKey ≠ some schema.hashKey → ∃ a,
    Encoding.encode (schema.datatype? schema.hashKey) record.hash = .ok a ∧
      key.find? schema.hashKey = some a

namespace Encoding

variable {schema : Schema} {record : KeyRecord}

/-! ### Records that have no key -/

/-- **A record is refused for its hash value first, then for its range value.** -/
theorem buildKey_eq_error_iff {e : Error} :
    buildKey schema record = .error e ↔ record.Refused schema e := by
  constructor
  · intro h
    unfold buildKey at h
    rcases bind_eq_error.mp h with hrejected | ⟨a, hhash, hrange⟩
    · exact .hash hrejected
    cases hkey : schema.rangeKey with
    | none =>
        cases hvalue : record.range with
        | none =>
            rw [hkey, hvalue] at hrange
            cases hrange
        | some v =>
            rw [hkey, hvalue] at hrange
            cases hrange
            exact .unexpected hhash hkey hvalue
    | some name =>
        cases hvalue : record.range with
        | none =>
            rw [hkey, hvalue] at hrange
            cases hrange
            exact .missing hhash hkey hvalue
        | some v =>
            rw [hkey, hvalue] at hrange
            rcases bind_eq_error.mp hrange with hrejected | ⟨b, -, hdone⟩
            · exact .range hhash hkey hvalue hrejected
            · cases hdone
  · intro h
    unfold buildKey
    cases h with
    | hash rejected => exact bind_eq_error.mpr (Or.inl rejected)
    | missing hash ranged absent =>
        refine bind_eq_error.mpr (Or.inr ⟨_, hash, ?_⟩)
        rw [ranged, absent]
        rfl
    | unexpected hash unranged present =>
        refine bind_eq_error.mpr (Or.inr ⟨_, hash, ?_⟩)
        rw [unranged, present]
        rfl
    | range hash ranged present rejected =>
        refine bind_eq_error.mpr (Or.inr ⟨_, hash, ?_⟩)
        rw [ranged, present]
        exact bind_eq_error.mpr (Or.inl rejected)

/-- A record is refused if its range value is there and should not be, or the other way round, or
if a value of the key is not encoded. -/
theorem exists_buildKey_eq_error_iff :
    (∃ e, buildKey schema record = .error e) ↔
      (schema.rangeKey = none ∧ record.range ≠ none) ∨
      (schema.rangeKey ≠ none ∧ record.range = none) ∨
      (∃ e, encode (schema.datatype? schema.hashKey) record.hash = .error e) ∨
      ∃ name v e, schema.rangeKey = some name ∧ record.range = some v ∧
        encode (schema.datatype? name) v = .error e := by
  simp only [buildKey_eq_error_iff]
  constructor
  · rintro ⟨e, h⟩
    cases h with
    | hash rejected => exact Or.inr (Or.inr (Or.inl ⟨e, rejected⟩))
    | missing _ ranged absent => exact Or.inr (Or.inl ⟨by simp [ranged], absent⟩)
    | unexpected _ unranged present => exact Or.inl ⟨unranged, by simp [present]⟩
    | range _ ranged present rejected =>
        exact Or.inr (Or.inr (Or.inr ⟨_, _, e, ranged, present, rejected⟩))
  · intro h
    cases hhash : encode (schema.datatype? schema.hashKey) record.hash with
    | error e => exact ⟨e, .hash hhash⟩
    | ok a =>
        rcases h with ⟨unranged, present⟩ | ⟨ranged, absent⟩ | ⟨e, rejected⟩ |
          ⟨name, v, e, ranged, present, rejected⟩
        · obtain ⟨v, hv⟩ := Option.ne_none_iff_exists'.mp present
          exact ⟨_, .unexpected hhash unranged hv⟩
        · obtain ⟨name, hname⟩ := Option.ne_none_iff_exists'.mp ranged
          exact ⟨_, .missing hhash hname absent⟩
        · rw [hhash] at rejected
          cases rejected
        · exact ⟨e, .range hhash ranged present rejected⟩

/-! ### The keys of the others -/

theorem keys_of_hash (a : Attribute) :
    (Entries.insert (∅ : NativeKey) schema.hashKey a).keys = [schema.hashKey] := rfl

/-- **A key that is built binds the attributes that the schema names**, each to its value. -/
theorem builtOf_of_buildKey {key : NativeKey} (h : buildKey schema record = .ok key) :
    key.BuiltOf schema record := by
  unfold buildKey at h
  obtain ⟨a, hhash, hrange⟩ := bind_eq_ok.mp h
  cases hkey : schema.rangeKey with
  | none =>
      cases hvalue : record.range with
      | some v =>
          rw [hkey, hvalue] at hrange
          cases hrange
      | none =>
          rw [hkey, hvalue] at hrange
          cases hrange
          refine {
            names := fun name => ?_
            range := fun name hname => by simp [hkey] at hname
            hash := fun _ => ⟨a, hhash, by rw [Entries.find?_insert, if_pos rfl]⟩ }
          rw [keys_of_hash, List.mem_singleton, Schema.isKey_iff, hkey]
          simp
  | some range =>
      cases hvalue : record.range with
      | none =>
          rw [hkey, hvalue] at hrange
          cases hrange
      | some v =>
          rw [hkey, hvalue] at hrange
          obtain ⟨b, hb, hdone⟩ := bind_eq_ok.mp hrange
          cases hdone
          refine {
            names := fun name => ?_
            range := ?_
            hash := fun hne => ⟨a, hhash, ?_⟩ }
          · rw [Entries.mem_keys_insert, keys_of_hash, List.mem_singleton, Schema.isKey_iff, hkey,
              Option.some.injEq, or_comm, @eq_comm _ name range]
          · intro name hname
            rw [hkey] at hname
            cases hname
            exact ⟨v, b, hvalue, hb, by rw [Entries.find?_insert, if_pos rfl]⟩
          · have hother : schema.hashKey ≠ range := fun he => hne (by rw [hkey, he])
            rw [Entries.find?_insert, if_neg hother, Entries.find?_insert, if_pos rfl]

end Encoding

/-! ### A fetch with a bad key -/

namespace Getter

variable {M σ : Type}

/-- A fetch whose keys are not built leaves the session as it was, in every order of its steps. -/
theorem get_of_buildKeys_error {g : Getter M} {records : List KeyRecord} {e : Error}
    (h : g.buildKeys records = .error e) (t : Transport σ) (session : Session σ)
    (options : ReadOptions) :
    g.get t session records options = (session, some (.error e)) ∧
      ∀ log r, g.Ends t session records options log r → log = [] ∧ r = .error e := by
  constructor
  · rw [get, getWithin, h]
  · intro log r hends
    cases hends with
    | unkeyed failed =>
        rw [h] at failed
        cases failed
        exact ⟨rfl, rfl⟩
    | fetched built _ _ =>
        rw [h] at built
        cases built

/-- **A bad key fails a fetch before any call.**  If a record is refused, the fetch gives the
failure of the first one that is, whichever bucket it comes to stand in and however the steps are
ordered, and no request is sent.  The standard serializer refuses a record if its range value is
there without a range key, or is not there with one, or a value of the key is not encoded under
its declared type; a key that is built binds the key attributes of the schema and nothing else. -/
theorem bad_key_before_calls (g : Getter M) (t : Transport σ) (session : Session σ)
    (records : List KeyRecord) (options : ReadOptions) :
    let build := g.serializer.buildKey g.table.schema
    ((∃ record ∈ records, ∃ e, build record = .error e) →
      ∃ before record after e, records = before ++ record :: after ∧
        (∀ earlier ∈ before, ∃ key, build earlier = .ok key) ∧ build record = .error e ∧
        (∀ size, (buckets size records).mapM (List.mapM build) = .error e) ∧
        g.get t session records options = (session, some (.error e)) ∧
        ∀ log r, g.Ends t session records options log r → log = [] ∧ r = .error e) ∧
    ∀ (schema : Schema) (record : KeyRecord),
      ((∃ e, Encoding.standard.buildKey schema record = .error e) ↔
        (schema.rangeKey = none ∧ record.range ≠ none) ∨
        (schema.rangeKey ≠ none ∧ record.range = none) ∨
        (∃ e, Encoding.encode (schema.datatype? schema.hashKey) record.hash = .error e) ∨
        ∃ name v e, schema.rangeKey = some name ∧ record.range = some v ∧
          Encoding.encode (schema.datatype? name) v = .error e) ∧
      ∀ key, Encoding.standard.buildKey schema record = .ok key →
        ∀ name, name ∈ key.keys ↔ schema.isKey name = true := by
  intro build
  refine ⟨?_, fun schema record => ⟨Encoding.exists_buildKey_eq_error_iff,
    fun key h => (Encoding.builtOf_of_buildKey h).names⟩⟩
  rintro ⟨record, hmem, e, he⟩
  cases hkeys : g.buildKeys records with
  | ok keys =>
      obtain ⟨key, hkey⟩ := exists_mapM_eq_ok_iff.mp ⟨keys, hkeys⟩ record hmem
      have hboth : build record = .ok key := hkey
      rw [he] at hboth
      cases hboth
  | error first =>
      obtain ⟨before, bad, after, hrecords, hbefore, hbad⟩ := mapM_eq_error_iff.mp hkeys
      have hnested : ∀ size, (buckets size records).mapM (List.mapM build) = .error first := by
        intro size
        have hall : records.mapM build = .error first := hkeys
        rw [mapM_buckets, hall]
        rfl
      exact ⟨before, bad, after, first, hrecords, hbefore, hbad, hnested,
        get_of_buildKeys_error hkeys t session options⟩

/-- Buckets of two records, of which the second bucket ends with one that has no range value; a
record after it has a hash value that is no number. -/
theorem bad_key_before_calls_second_bucket :
    let schema := (Schema.ofHashKey "id" .number).withRangeKey "at" .string
    let g : Getter Item := { table := .plain "users" schema, config := { maxBatchSize := 2 } }
    let record (id at? : String) : KeyRecord := { hash := .text id, range := some (.text at?) }
    let records : List KeyRecord := [record "1" "a", record "2" "b", record "3" "c",
      { hash := .text "4" }, record "x" "e"]
    let session : Session Store := { store := { pageLimit := some 1 } }
    buckets 2 records = [[record "1" "a", record "2" "b"], [record "3" "c", { hash := .text "4" }],
        [record "x" "e"]] ∧
      g.get Store.transport session records ∅ =
        (session, some (.error (.argument (.missingRange "at")))) := by
  intro schema g record records session
  have hmissing : g.serializer.buildKey g.table.schema { hash := .text "4" } =
      .error (.argument (.missingRange "at")) := by decide +kernel
  obtain ⟨before, bad, after, e, -, -, -, hnested, hget, -⟩ :=
    (bad_key_before_calls g Store.transport session records ∅).1
      ⟨{ hash := .text "4" }, by simp [records], _, hmissing⟩
  have hfirst : (buckets 2 records).mapM (List.mapM (g.serializer.buildKey g.table.schema)) =
      .error (.argument (.missingRange "at")) := by decide +kernel
  rw [hnested 2] at hfirst
  cases hfirst
  exact ⟨by decide +kernel, hget⟩

end Getter

end ItemStore
