/-
Fetching from the store in memory finds what its tables hold.

The store answers a request for the keys of one table in pages, and the pager asks for what
was left over until nothing is.  `receive_answer` is one such round: the keys of the page
are looked up, the others are the next request.  A failure in between changes nothing but
the count of retries (`receive_failure`).

So a bucket in flight is at any time a prefix that has been looked up and the keys that are
still asked for, and this is a `Rule` of fetches from the store (`storeRule`).  The store's
tables never change, which is why the buckets, though they share its failures and its
clock, do not see each other.  Each step also answers a key or uses up a failure, so the
fuel of `Getter.get` suffices, and in the end every bucket has been looked up whole.
-/
import ItemStore.Proofs.Batch.Buckets
import ItemStore.Proofs.Batch.Completion
import ItemStore.Proofs.Dict
import ItemStore.Proofs.Except
import ItemStore.Batch.Getter
import ItemStore.Store

namespace ItemStore

/-! ### Requests for the keys of one table -/

/-- The request for the keys of one table that are left, if any are. -/
def BatchRequest.pending (table : String) (options : ReadOptions) :
    List NativeKey → BatchRequest
  | [] => ∅
  | k :: ks => .ofTable table (k :: ks) options

namespace BatchRequest

theorem ofTable_eq_pending (table : String) (options : ReadOptions) {keys : List NativeKey}
    (h : keys ≠ []) : ofTable table keys options = pending table options keys := by
  cases keys with
  | nil => exact absurd rfl h
  | cons k ks => rfl

@[simp] theorem keyCount_pending (table : String) (options : ReadOptions)
    (keys : List NativeKey) : (pending table options keys).keyCount = keys.length := by
  cases keys with
  | nil => rfl
  | cons k ks => exact keyCount_ofTable ..

theorem isEmpty_pending_iff (table : String) (options : ReadOptions) (keys : List NativeKey) :
    (pending table options keys).isEmpty = true ↔ keys = [] := by
  rw [isEmpty, decide_eq_true_iff, keyCount_pending, List.length_eq_zero_iff]

end BatchRequest

namespace Store

/-! ### Pages -/

/-- How many of a number of keys one call looks up. -/
def pageSize (s : Store) (count : Nat) : Nat :=
  match s.pageLimit with
  | some limit => min count limit
  | none => count

theorem pageSize_pos {s : Store} (hlimit : s.pageLimit ≠ some 0) {count : Nat} (h : 0 < count) :
    0 < s.pageSize count := by
  unfold pageSize
  split
  · rename_i limit he
    have : limit ≠ 0 := fun h0 => hlimit (h0 ▸ he)
    omega
  · exact h

theorem pageSize_eq_min {s : Store} {limit : Nat} (paged : s.pageLimit = some limit)
    (count : Nat) : s.pageSize count = min count limit := by
  rw [pageSize, paged]

/-- The reply to a request for the keys of one table: the first page of them is looked up. -/
theorem answer_ofTable (s : Store) (table : String) (keys : List NativeKey)
    (options : ReadOptions) :
    s.answer (.ofTable table keys options) =
      { items := Entries.insert ∅ table
          ((keys.take (s.pageSize keys.length)).filterMap (s.lookup table))
        unprocessed :=
          if (keys.drop (s.pageSize keys.length)).isEmpty then none
          else some (Entries.insert ∅ table
            { keys := keys.drop (s.pageSize keys.length), options }) } := by
  rfl

theorem itemsFor_answer (s : Store) (table : String) (keys : List NativeKey)
    (options : ReadOptions) :
    (s.answer (.ofTable table keys options)).itemsFor table =
      (keys.take (s.pageSize keys.length)).filterMap (s.lookup table) := by
  simp [answer_ofTable, BatchResponse.itemsFor]

/-- The keys beyond the page are the next request. -/
theorem next_answer (s : Store) (table : String) (keys : List NativeKey)
    (options : ReadOptions) :
    (s.answer (.ofTable table keys options)).next?.getD ∅ =
      .pending table options (keys.drop (s.pageSize keys.length)) := by
  rw [answer_ofTable, BatchResponse.next?]
  cases hleft : keys.drop (s.pageSize keys.length) with
  | nil => simp [BatchRequest.pending]
  | cons k ks =>
      have hkept : (BatchRequest.ofTable table (k :: ks) options).isEmpty = false := by
        simp [BatchRequest.isEmpty]
      show ((some (BatchRequest.ofTable table (k :: ks) options)).filter
        fun next => !next.isEmpty).getD ∅ = BatchRequest.ofTable table (k :: ks) options
      rw [Option.filter_some, hkept]
      rfl

/-- A reply is the failure that is due, or the answer. -/
theorem reply_cases (s : Store) (request : BatchRequest) :
    (∃ e failures, s.failures = e :: failures ∧
      s.reply request = ({ s with inFlight := s.inFlight - 1, failures }, .error e)) ∨
    (s.failures = [] ∧
      s.reply request = ({ s with inFlight := s.inFlight - 1 }, .ok (s.answer request))) := by
  rw [reply]
  cases hfailures : s.failures with
  | nil => exact .inr ⟨rfl, rfl⟩
  | cons e failures => exact .inl ⟨e, failures, rfl, rfl⟩

end Store

namespace Pager

/-! ### Rounds against the store -/

/-- Without a limit on retries a retryable failure repeats the request. -/
theorem receive_failure {policy : RetryPolicy} (huncapped : policy.maxRetries = none)
    (table : String) (p : Pager) {e : Error} (he : e.isRetryable = true) :
    p.receive policy table (.error e) =
      .ok ({ p with retries := p.retries + 1 }, (policy.backoff p.retries).toNat) := by
  simp [receive, RetryPolicy.afterFailure, RetryPolicy.allows, he, huncapped, Except.map]

/-- An answer of the store brings the pager one page forward. -/
theorem receive_answer (policy : RetryPolicy) (table : String) (options : ReadOptions)
    (s : Store) (p : Pager) {keys : List NativeKey} (hne : keys ≠ [])
    (hrequest : p.request = .pending table options keys) :
    p.receive policy table (.ok (s.answer p.request)) =
      .ok ({ request := .pending table options (keys.drop (s.pageSize keys.length))
             items := p.items ++
               (keys.take (s.pageSize keys.length)).filterMap (s.lookup table) }, 0) := by
  rw [hrequest, ← BatchRequest.ofTable_eq_pending table options hne]
  unfold receive
  simp only [Store.next_answer, Store.itemsFor_answer]
  rw [hrequest, BatchRequest.keyCount_pending, BatchRequest.keyCount_pending, if_neg]
  rw [List.length_drop]
  omega

end Pager

/-! ### What a fetch from the store keeps -/

/-- The first item of a table that has the attributes of a key. -/
def Store.firstMatch (tables : Dict (List NativeItem)) (table : String) (key : NativeKey) :
    Option NativeItem :=
  ((tables.find? table).getD []).find? (matchesKey key)

theorem Store.lookup_eq_firstMatch (s : Store) (table : String) :
    s.lookup table = firstMatch s.tables table := rfl

namespace Fetch

section StoreRule

variable {M : Type} (plan : FetchPlan M) (options : ReadOptions)
variable (tables : Dict (List NativeItem)) (limit : Option Nat) (bs : List (List NativeKey))

/-- The store as a fetch may find it: its tables, its page limit, and any number of failures
to come, all of which are worth a retry. -/
structure Serves (s : Store) : Prop where
  tables_eq : s.tables = tables
  limit_eq : s.pageLimit = limit
  retryable : ∀ e ∈ s.failures, e.isRetryable = true

/-- A bucket on its way: part of its keys has been looked up, and the others are asked for.
While a call is out there are others. -/
def Underway (i : Nat) (p : Pager) (calling : Bool) : Prop :=
  ∃ seen left, bs[i]? = some (seen ++ left) ∧
    p.request = .pending plan.table options left ∧
    p.items = seen.filterMap (Store.firstMatch tables plan.table) ∧
    (calling = true → left ≠ [])

variable {plan options tables limit bs}

theorem Underway.isDone_iff {i : Nat} {p : Pager} {calling : Bool}
    (h : Underway plan options tables bs i p calling) :
    p.isDone = true ↔
      ∃ bucket, bs[i]? = some bucket ∧ p.request = .pending plan.table options [] ∧
        p.items = bucket.filterMap (Store.firstMatch tables plan.table) := by
  obtain ⟨seen, left, hbucket, hrequest, hitems, -⟩ := h
  rw [Pager.isDone, hrequest, BatchRequest.isEmpty_pending_iff]
  constructor
  · rintro rfl
    exact ⟨seen, by simpa using hbucket, rfl, hitems⟩
  · rintro ⟨-, -, hnone, -⟩
    rw [← BatchRequest.isEmpty_pending_iff plan.table options, hnone]
    rfl

/-- Whatever the store replies, the bucket goes on, and a key or a failure fewer is left. -/
theorem receive_reply (huncapped : plan.policy.maxRetries = none) (hlimit : limit ≠ some 0)
    {s : Store} {i : Nat} {p : Pager} (hs : Serves tables limit s)
    (hp : Underway plan options tables bs i p true) :
    ∃ pager wait, p.receive plan.policy plan.table (s.reply p.request).2 = .ok (pager, wait) ∧
      Serves tables limit (s.reply p.request).1 ∧
      Underway plan options tables bs i pager false ∧
      (s.reply p.request).1.failures.length + pager.request.keyCount <
        s.failures.length + p.request.keyCount := by
  obtain ⟨seen, left, hbucket, hrequest, hitems, hleft⟩ := hp
  have hne : left ≠ [] := hleft rfl
  rcases s.reply_cases p.request with ⟨e, failures, hfailures, hreply⟩ | ⟨hfailures, hreply⟩
  · have he : e.isRetryable = true := hs.retryable e (by simp [hfailures])
    rw [hreply]
    refine ⟨_, _, Pager.receive_failure huncapped plan.table p he,
      ⟨hs.tables_eq, hs.limit_eq, ?_⟩, ⟨seen, left, hbucket, hrequest, hitems, nofun⟩, ?_⟩
    · intro e' he'
      exact hs.retryable e' (by simp [hfailures, show e' ∈ failures from he'])
    · simp [hfailures]
  · have hpage : 0 < s.pageSize left.length :=
      Store.pageSize_pos (hs.limit_eq ▸ hlimit) (List.length_pos_of_ne_nil hne)
    have hkeys : 0 < left.length := List.length_pos_of_ne_nil hne
    rw [hreply]
    refine ⟨_, _, Pager.receive_answer plan.policy plan.table options s p hne hrequest,
      ⟨hs.tables_eq, hs.limit_eq, hs.retryable⟩,
      ⟨seen ++ left.take (s.pageSize left.length), left.drop (s.pageSize left.length),
        ?_, rfl, ?_, nofun⟩, ?_⟩
    · rw [List.append_assoc, List.take_append_drop, hbucket]
    · rw [hitems, List.filterMap_append, Store.lookup_eq_firstMatch, hs.tables_eq]
    · simp only [hrequest, hfailures, BatchRequest.keyCount_pending, List.length_drop]
      omega

variable (options tables bs) in
/-- **Buckets fetched from the store keep to their keys**, and no bucket fails. -/
def storeRule (huncapped : plan.policy.maxRetries = none) (hlimit : limit ≠ some 0)
    {model : NativeItem → M} (hbuild : ∀ items, plan.build items = .ok (items.map model)) :
    Rule plan Store.transport where
  store := Serves tables limit
  flight := Underway plan options tables bs
  result i models := ∃ bucket, bs[i]? = some bucket ∧
    models = (bucket.filterMap (Store.firstMatch tables plan.table)).map model
  error _ := False
  sends := by
    intro s i p hs hp hleft
    refine ⟨⟨hs.tables_eq, hs.limit_eq, hs.retryable⟩, ?_⟩
    obtain ⟨seen, left, hbucket, hrequest, hitems, -⟩ := hp
    refine ⟨seen, left, hbucket, hrequest, hitems, fun _ hnil => ?_⟩
    rw [Pager.isDone, hrequest, hnil] at hleft
    cases hleft
  takes := by
    intro s i p pager wait hs hp hreceive
    obtain ⟨pager', wait', hreceive', hs', hp', -⟩ := receive_reply huncapped hlimit hs hp
    cases hreceive'.symm.trans hreceive
    exact ⟨hs', hp'⟩
  fails := by
    intro s i p e hs hp hreceive
    obtain ⟨pager', wait', hreceive', -⟩ := receive_reply huncapped hlimit hs hp
    cases hreceive'.symm.trans hreceive
  finishes := by
    intro i p models hp hdone hmodels
    obtain ⟨bucket, hbucket, -, hitems⟩ := hp.isDone_iff.mp hdone
    rw [hbuild, hitems] at hmodels
    cases hmodels
    exact ⟨bucket, hbucket, rfl⟩
  breaks := by
    intro i p e _ _ hmodels
    rw [hbuild] at hmodels
    cases hmodels

theorem storeRule_advances (huncapped : plan.policy.maxRetries = none)
    (hlimit : limit ≠ some 0) {model : NativeItem → M}
    (hbuild : ∀ items, plan.build items = .ok (items.map model)) :
    (storeRule options tables bs huncapped hlimit hbuild).Advances where
  send _ _ := Nat.le_refl _
  take := by
    intro s i p pager wait hs hp hreceive
    obtain ⟨pager', wait', hreceive', -, -, hless⟩ := receive_reply huncapped hlimit hs hp
    cases hreceive'.symm.trans hreceive
    exact hless

/-! ### How it ends -/

/-- The work of a fetch is a number of steps for each failure and each key. -/
theorem start_work_le (plan : FetchPlan M) (options : ReadOptions) (session : Session Store)
    (size : Nat) (keys : List NativeKey) (table : String) :
    (start plan session ((buckets size keys).map fun b => .ofTable table b options)).work
      Store.transport ≤ 2 * session.store.failures.length + 3 * keys.length := by
  have hbuckets : ((buckets size keys).map fun b => 2 * b.length + 1).sum
      = 2 * keys.length + (buckets size keys).length := by
    rw [← sum_length_buckets size keys]
    induction buckets size keys with
    | nil => rfl
    | cons b bs ih =>
        simp only [List.map_cons, List.sum_cons, List.length_cons, ih]
        omega
  have hcount := length_buckets_le size keys
  rw [start_work, List.map_map]
  simp only [Function.comp_def, BatchRequest.keyCount_ofTable, hbuckets]
  show 2 * session.store.failures.length + _ ≤ _
  omega

variable {session : Session Store} {size : Nat} {keys : List NativeKey}

variable (options size keys) in
theorem start_holds_storeRule (huncapped : plan.policy.maxRetries = none)
    (hlimit : session.store.pageLimit ≠ some 0)
    (hretryable : ∀ e ∈ session.store.failures, e.isRetryable = true)
    {model : NativeItem → M} (hbuild : ∀ items, plan.build items = .ok (items.map model)) :
    (storeRule options session.store.tables (buckets size keys) huncapped hlimit
      hbuild).Holds (start plan session
        ((buckets size keys).map fun b => .ofTable plan.table b options)) := by
  refine start_holds ⟨rfl, rfl, hretryable⟩ fun i hi => ?_
  have hi' : i < (buckets size keys).length := by simpa using hi
  have hne : (buckets size keys)[i] ≠ [] := ne_nil_of_mem_buckets (List.getElem_mem hi')
  refine ⟨[], (buckets size keys)[i], by simp [hi'], ?_, rfl, nofun⟩
  rw [List.getElem_map]
  exact BatchRequest.ofTable_eq_pending _ _ hne

/-- The results of all buckets are those of all keys. -/
theorem flatMap_buckets {β : Type} (f : NativeKey → Option NativeItem) (model : NativeItem → β) :
    ((List.range (buckets size keys).length).flatMap fun i =>
      (((buckets size keys)[i]?.getD []).filterMap f).map model) =
      (keys.filterMap f).map model := by
  have hbuckets : (List.range (buckets size keys).length).map
      (fun i => (buckets size keys)[i]?.getD []) = buckets size keys := by
    refine List.ext_getElem (by simp) fun i hi _ => ?_
    have hi' : i < (buckets size keys).length := by simpa using hi
    simp [hi']
  calc (List.range (buckets size keys).length).flatMap
        (fun i => (((buckets size keys)[i]?.getD []).filterMap f).map model)
      = ((List.range (buckets size keys).length).map
          (fun i => (buckets size keys)[i]?.getD [])).flatMap
            (fun bucket => (bucket.filterMap f).map model) := by rw [List.flatMap_map]
    _ = (buckets size keys).flatMap (fun bucket => (bucket.filterMap f).map model) := by
        rw [hbuckets]
    _ = ((buckets size keys).flatten.filterMap f).map model := by
        rw [List.filterMap_flatten, List.map_flatten, List.map_map, List.flatMap_def]
        rfl
    _ = (keys.filterMap f).map model := by rw [flatten_buckets]

/-- **A fetch from the store does not fail, takes no more steps than it has work, and when
nothing is in flight any more its result is the items of the keys.**  All of it whatever the
order of the steps. -/
theorem reaches_store {n : Nat} {s : Fetch Store M} (hconcurrency : 0 < plan.concurrency)
    (huncapped : plan.policy.maxRetries = none)
    (hlimit : session.store.pageLimit ≠ some 0)
    (hretryable : ∀ e ∈ session.store.failures, e.isRetryable = true)
    {model : NativeItem → M} (hbuild : ∀ items, plan.build items = .ok (items.map model))
    (h : Reaches plan Store.transport (start plan session
      ((buckets size keys).map fun b => .ofTable plan.table b options)) n s) :
    s.failure = none ∧ n ≤ 2 * session.store.failures.length + 3 * keys.length ∧
      (s.flights = [] → s.result? = some (.ok
        ((keys.filterMap (Store.firstMatch session.store.tables plan.table)).map model))) := by
  have hstart := start_indices plan session
    ((buckets size keys).map fun b => .ofTable plan.table b options)
  have hnodup := hstart.nodup_iff.mpr List.nodup_range
  have hholds₀ := start_holds_storeRule options size keys huncapped hlimit hretryable hbuild
  have hholds := Rule.holds_of_reaches hnodup hholds₀ h
  have hgoing : s.failure = none := by
    cases hfailure : s.failure with
    | none => rfl
    | some e => exact (hholds.failure e hfailure).elim
  have hwork := work_of_reaches (storeRule_advances huncapped hlimit hbuild) hnodup hholds₀ h
    hgoing
  have hbound := start_work_le plan options session size keys plan.table
  refine ⟨hgoing, by omega, fun hflights => ?_⟩
  rw [result_of_reaches hconcurrency h hgoing hflights (fun i =>
    (((buckets size keys)[i]?.getD []).filterMap
      (Store.firstMatch session.store.tables plan.table)).map model), List.length_map,
    flatMap_buckets]
  intro d hd
  obtain ⟨bucket, hbucket, hd'⟩ := hholds.finished d hd
  rw [hd', hbucket]
  rfl

end StoreRule

end Fetch

namespace Getter

variable {M : Type}

/-- A table whose items are taken as they are gives back every item decoded. -/
theorem mapM_buildModel_plain (name : String) (schema : Schema) (config : BatchConfig)
    (natives : List NativeItem) :
    natives.mapM ({ table := .plain name schema, config : Getter Item }).buildModel =
      .ok (natives.map NativeItem.decode) := by
  induction natives with
  | nil => rfl
  | cons native natives ih =>
      rw [List.mapM_cons, ih]
      rfl

/--
**Fetching from the store gives the first match of every key, in the order of the keys.**

Neither the sizes of the buckets, nor how many are in flight, nor the store's pages, its
latency and its failures show in the result, and neither does the order in which the buckets
go on: `get` takes one order, and in every other the fetch never fails, comes to an end, and
has the same result.
-/
theorem get_store_eq (name : String) (schema : Schema) (config : BatchConfig)
    (options : ReadOptions) (session : Session Store) (records : List KeyRecord)
    (keys : List NativeKey) (hkeys : records.mapM (Encoding.buildKey schema) = .ok keys)
    (huncapped : config.retry.maxRetries = none)
    (hlimit : session.store.pageLimit ≠ some 0)
    (hretryable : ∀ e ∈ session.store.failures, e.isRetryable = true) :
    let getter : Getter Item := { table := .plain name schema, config }
    let requests := getter.requests keys options
    let plan := getter.plan requests.length
    let found := (keys.filterMap fun key =>
      ((session.store.tables.find? name).getD []).find? (Store.matchesKey key)).map
        NativeItem.decode
    (getter.get Store.transport session records options).2 = some (.ok found) ∧
      ∀ n s, Fetch.Reaches plan Store.transport (Fetch.start plan session requests) n s →
        s.failure = none ∧ n ≤ 2 * session.store.failures.length + 3 * records.length ∧
          (s.flights = [] → s.result? = some (.ok found)) := by
  intro getter requests plan found
  have hlength : records.length = keys.length := (mapM_eq_ok_iff.mp hkeys).length_eq
  have hevery : ∀ n s, Fetch.Reaches plan Store.transport
      (Fetch.start plan session requests) n s → _ := fun n s h =>
    Fetch.reaches_store (plan_concurrency_pos getter requests.length) huncapped hlimit
      hretryable (mapM_buildModel_plain name schema config) h
  refine ⟨?_, fun n s h => hlength ▸ hevery n s h⟩
  have hget : getter.get Store.transport session records options =
      let done := (Fetch.start plan session requests).run plan Store.transport
        (2 * session.store.failures.length + 3 * records.length + 1)
      (done.session, done.result?) := by
    unfold get getWithin buildKeys
    rw [show records.mapM (getter.serializer.buildKey getter.table.schema) = .ok keys from hkeys]
    rfl
  rw [hget]
  obtain ⟨n, hreach, -⟩ := Fetch.run_reaches plan Store.transport
    (2 * session.store.failures.length + 3 * records.length + 1)
    (Fetch.start plan session requests)
  obtain ⟨hgoing, -, hresult⟩ := hevery _ _ hreach
  refine hresult (Fetch.run_ends
    (Fetch.storeRule_advances huncapped hlimit (mapM_buildModel_plain name schema config))
    ((Fetch.start_indices plan session requests).nodup_iff.mpr List.nodup_range)
    (Fetch.start_holds_storeRule options _ _ huncapped hlimit hretryable
      (mapM_buildModel_plain name schema config)) ?_ hgoing)
  -- The fuel of `get` is more than the work at the start.
  have := Fetch.start_work_le plan options session config.maxBatchSize keys name
  exact Nat.lt_succ_of_le (hlength ▸ this)

/-- Three records with one key twice and one that matches nothing, in buckets of two, one
bucket in flight, one key to a page, and a failure to come. -/
theorem get_store_eq_repeated :
    let schema := Schema.ofHashKey "id" .string
    let item : String → NativeItem := fun id => Entries.insert ∅ "id" (.leaf (.text id))
    let config : BatchConfig := { maxBatchSize := 2, maxConcurrency := some 1 }
    let session : Session Store := { store := {
      tables := Entries.insert ∅ "users" [item "a", item "b"]
      failures := [.throttled "slow down"], pageLimit := some 1, latency := 5 } }
    let records : List KeyRecord :=
      [{ hash := .text "b" }, { hash := .text "c" }, { hash := .text "b" }]
    records.mapM (Encoding.buildKey schema) = .ok [item "b", item "c", item "b"] ∧
      config.retry.maxRetries = none ∧ session.store.pageLimit ≠ some 0 ∧
      (∀ e ∈ session.store.failures, e.isRetryable = true) ∧
      (get { table := .plain "users" schema, config } Store.transport session records ∅).2 =
        some (.ok [(item "b").decode, (item "b").decode]) := by
  intro schema item config session records
  have hkeys : records.mapM (Encoding.buildKey schema) =
      .ok [item "b", item "c", item "b"] := by rfl
  have hlimit : session.store.pageLimit ≠ some 0 := by decide
  have hretryable : ∀ e ∈ session.store.failures, e.isRetryable = true := by
    intro e he
    rw [List.mem_singleton.mp he]
    rfl
  refine ⟨hkeys, rfl, hlimit, hretryable, ?_⟩
  exact (get_store_eq "users" schema config ∅ session records _ hkeys rfl hlimit hretryable).1

end Getter

end ItemStore
