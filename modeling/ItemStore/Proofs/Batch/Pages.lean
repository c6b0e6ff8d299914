/-
Paging through the keys of one table.

Against the store in memory the rounds of a request can be told beforehand.  The store looks up a
page of the keys and hands the others back, and with them the options they were asked for under;
the pager asks for what it is handed.  So round `i` asks for the keys without their first `i`
pages, and there are as many rounds as pages, the last of which may be short.  It is never empty.
Where the page limit divides the number of keys the last page is full, and the store hands
nothing back rather than a request for no keys.

Failures make no difference to that, since a failed call leaves the tables as they are and the
request is sent again unchanged.  They are used up in the first round.

What is known wherever a request has got to is `Paged`.  One more round keeps it
(`Paged.round`), and there is one more round as long as a page is left (`exists_passes`).
-/
import Mathlib.Algebra.Order.Floor.Div
import ItemStore.Proofs.Batch.Paging
import ItemStore.Proofs.StoreFetch

namespace ItemStore

/-! ### Calls to the store -/

namespace Store

open Fetch (Serves)

theorem answerTables_congr {s s' : Store} (h : s.lookup = s'.lookup) :
    ∀ (tables : List (String × TableRequest)) (budget : Option Nat) (response : BatchResponse),
      s.answerTables budget tables response = s'.answerTables budget tables response
  | [], _, _ => rfl
  | (table, wanted) :: rest, budget, response => by
      rw [answerTables.eq_def, answerTables.eq_def s', h]
      exact answerTables_congr h rest _ _

/-- What a store answers depends on its tables and its page limit only. -/
theorem answer_congr {s s' : Store} (htables : s.tables = s'.tables)
    (hlimit : s.pageLimit = s'.pageLimit) (request : BatchRequest) :
    s.answer request = s'.answer request := by
  have hlookup : s.lookup = s'.lookup := by
    funext table
    rw [lookup_eq_firstMatch, lookup_eq_firstMatch, htables]
  rw [answer, answer, hlimit]
  exact answerTables_congr hlookup _ _ _

/-- What becomes of a store that is called with a request. -/
structure Called (s : Store) (request : BatchRequest) (reply : Except Error BatchResponse)
    (s' : Store) : Prop where
  serves : ∀ {tables : Dict (List NativeItem)} {limit : Option Nat},
    Serves tables limit s → Serves tables limit s'
  requests_eq : s'.requests = s.requests ++ [request]
  /-- The reply is the first of the failures, or the answer when there are none. -/
  replied : (∃ e, reply = .error e ∧ s.failures = e :: s'.failures) ∨
    (reply = .ok (s.answer request) ∧ s.failures = [] ∧ s'.failures = [])

theorem called_of_call {s s' : Session Store} {request : BatchRequest}
    {reply : Except Error BatchResponse} (called : s.call transport request = (s', reply)) :
    s.store.Called request reply s'.store := by
  have hanswer : (s.store.receive request).answer request = s.store.answer request := by
    refine answer_congr ?_ ?_ request <;> rfl
  have hstore : s'.store = ((s.store.receive request).reply request).1 :=
    (congrArg (fun next => next.1.store) called).symm
  have hreply : reply = ((s.store.receive request).reply request).2 :=
    (congrArg Prod.snd called).symm
  rw [hstore, hreply]
  rcases reply_cases (s.store.receive request) request with ⟨e, failures, hfailures, hreplied⟩ |
    ⟨hnone, hreplied⟩
  · rw [hreplied]
    refine ⟨fun hs => ⟨hs.tables_eq, hs.limit_eq, fun e' he' => ?_⟩, rfl, .inl ⟨e, rfl, hfailures⟩⟩
    have hqueued : e' ∈ (s.store.receive request).failures := by
      rw [hfailures]
      exact List.mem_cons_of_mem e he'
    exact hs.retryable e' hqueued
  · rw [hreplied, hanswer]
    exact ⟨fun hs => ⟨hs.tables_eq, hs.limit_eq, hs.retryable⟩, rfl, .inr ⟨rfl, hnone, hnone⟩⟩

end Store

namespace Pager

open Fetch (Serves)

variable {policy : RetryPolicy} {table : String} {s₀ s s₁ s₂ : Session Store}
  {request current : BatchRequest} {failures : List Error} {rounds : List Round}

/-! ### Failures in a round -/

/-- The failures after which a request was sent again are the first that the store had queued, and
it has seen the request once for each. -/
theorem Repeats.store (h : Repeats Store.transport policy request s failures s₁) :
    s.store.failures = failures ++ s₁.store.failures ∧
      (∀ {tables limit}, Serves tables limit s.store → Serves tables limit s₁.store) ∧
      s₁.store.requests = s.store.requests ++ List.replicate failures.length request := by
  induction h with
  | start => exact ⟨rfl, id, by simp⟩
  | @again failures e s₁ s₂ before failed retryable within ih =>
      obtain ⟨hqueue, hserves, hrequests⟩ := ih
      obtain ⟨hserves', hrequests', hreplied⟩ := Store.called_of_call failed
      have hfirst : s₁.store.failures = e :: s₂.store.failures := by
        rcases hreplied with ⟨e', he, hfailures⟩ | ⟨hok, -, -⟩
        · cases he
          exact hfailures
        · cases hok
      refine ⟨?_, fun hs => hserves' (hserves hs), ?_⟩
      · rw [hqueue, hfirst, List.append_assoc]
        rfl
      · show s₂.store.requests = _
        rw [hrequests', hrequests, List.length_append, List.length_singleton,
          List.replicate_succ', List.append_assoc]

/-- Without a limit on retries a request is sent again until no failure is queued. -/
theorem exists_repeats (uncapped : policy.maxRetries = none) (request : BatchRequest)
    (retryable : ∀ e ∈ s.store.failures, e.isRetryable = true) :
    ∃ s₁, Repeats Store.transport policy request s s.store.failures s₁ := by
  suffices hlater : ∀ (queue : List Error) (failures : List Error) (s₁ : Session Store),
      Repeats Store.transport policy request s failures s₁ → s₁.store.failures = queue →
      (∀ e ∈ queue, e.isRetryable = true) →
        ∃ s₂, Repeats Store.transport policy request s (failures ++ queue) s₂ from
    hlater _ [] s .start rfl retryable
  intro queue
  induction queue with
  | nil =>
      intro failures s₁ h _ _
      exact ⟨s₁, by rwa [List.append_nil]⟩
  | cons e queue ih =>
      intro failures s₁ h hqueue hretryable
      obtain ⟨s₂, reply, called⟩ : ∃ s₂ reply, s₁.call Store.transport request = (s₂, reply) :=
        ⟨_, _, rfl⟩
      rcases (Store.called_of_call called).replied with ⟨e', rfl, hfirst⟩ | ⟨-, hnone, -⟩
      · rw [hqueue] at hfirst
        obtain ⟨rfl, hrest⟩ := List.cons.inj hfirst
        have hagain := h.again called (hretryable e List.mem_cons_self) (by simp [uncapped])
        obtain ⟨s₃, h₃⟩ := ih _ _ hagain hrest.symm fun x hx =>
          hretryable x (List.mem_cons_of_mem _ hx)
        exact ⟨s₃, by rwa [List.append_assoc] at h₃⟩
      · rw [hqueue] at hnone
        cases hnone

/-! ### Rounds of pages -/

section Pages

variable (table : String) (keys : List NativeKey) (options : ReadOptions) (limit : Nat)
  (s₀ : Session Store)

/-- The request for the keys without their first `i` pages. -/
def pageRequest (i : Nat) : BatchRequest :=
  .ofTable table (keys.drop (i * limit)) options

/-- The round of page `i`.  What failures there are fall into the first. -/
def pageRound (i : Nat) : Round where
  request := pageRequest table keys options limit i
  failures := if i = 0 then s₀.store.failures else []
  reply := .ok (s₀.store.answer (pageRequest table keys options limit i))

/-- How far a request for the keys has got, after these rounds. -/
structure Paged (rounds : List Round) (s : Session Store) (current : BatchRequest) : Prop where
  /-- The store still has its tables and its page limit, and no failure that ends the matter. -/
  serves : Serves s₀.store.tables (some limit) s.store
  /-- No failure is left after the first round. -/
  failures : s.store.failures = if rounds.length = 0 then s₀.store.failures else []
  /-- The store has seen the requests of the rounds. -/
  requests : s.store.requests = s₀.store.requests ++ Round.sent rounds
  /-- The keys beyond the pages behind are asked for. -/
  current_eq : current = .pending table options (keys.drop (rounds.length * limit))
  rounds_eq : rounds = (List.range rounds.length).map (pageRound table keys options limit s₀)
  /-- No round is without a page. -/
  length_le : rounds.length ≤ keys.length ⌈/⌉ limit

end Pages

variable {keys : List NativeKey} {options : ReadOptions} {limit : Nat}

/-- There is a page `i` as long as the first `i` pages leave a key. -/
theorem lt_pages_iff (positive : 0 < limit) (i : Nat) :
    i < keys.length ⌈/⌉ limit ↔ keys.drop (i * limit) ≠ [] := by
  rw [← not_le, ceilDiv_le_iff_le_mul positive, Nat.mul_comm, Ne, List.drop_eq_nil_iff]

/-- The keys beyond a page are those that one page more leaves. -/
theorem drop_pageSize {store : Store} (paged : store.pageLimit = some limit) (i : Nat) :
    (keys.drop (i * limit)).drop (store.pageSize (keys.drop (i * limit)).length) =
      keys.drop ((i + 1) * limit) := by
  rw [Nat.succ_mul, ← List.drop_drop, List.drop_eq_drop_iff, Store.pageSize_eq_min paged]
  omega

/-- There is a request as long as a page is left. -/
theorem Paged.isEmpty_iff (h : Paged table keys options limit s₀ rounds s current)
    (positive : 0 < limit) :
    current.isEmpty = false ↔ rounds.length < keys.length ⌈/⌉ limit := by
  rw [lt_pages_iff positive, h.current_eq, ← Bool.not_eq_true, BatchRequest.isEmpty_pending_iff]

/-- A request that is not done with its pages asks for what they leave. -/
theorem Paged.current_eq_pageRequest (h : Paged table keys options limit s₀ rounds s current)
    (positive : 0 < limit) (asking : current.isEmpty = false) :
    current = pageRequest table keys options limit rounds.length := by
  have hleft := (lt_pages_iff positive _).mp ((h.isEmpty_iff positive).mp asking)
  rw [h.current_eq, pageRequest, BatchRequest.ofTable_eq_pending table options hleft]

/-- A reply to a request for pages is a failure that is worth another try or, when the queue is used
up, the answer. -/
theorem Paged.called (h : Paged table keys options limit s₀ rounds s current)
    (paged : s₀.store.pageLimit = some limit) {reply : Except Error BatchResponse}
    (repeated : Repeats Store.transport policy current s failures s₁)
    (called : s₁.call Store.transport current = (s₂, reply)) :
    (∃ e, reply = .error e ∧ e.isRetryable = true) ∨
      (reply = .ok (s₀.store.answer current) ∧ s.store.failures = failures ∧
        s₂.store.failures = [] ∧ Serves s₀.store.tables (some limit) s₂.store ∧
        s₂.store.requests = s.store.requests ++ List.replicate (failures.length + 1) current) := by
  obtain ⟨hqueue, hserves, hrequests⟩ := repeated.store
  obtain ⟨hserves', hrequests', hreplied⟩ := Store.called_of_call called
  have hs₁ := hserves h.serves
  rcases hreplied with ⟨e, he, hfirst⟩ | ⟨hreply, hnone, hnone'⟩
  · have hmem : e ∈ s₁.store.failures := by rw [hfirst]; exact List.mem_cons_self
    exact .inl ⟨e, he, hs₁.retryable e hmem⟩
  · have hanswer := Store.answer_congr hs₁.tables_eq (hs₁.limit_eq.trans paged.symm) current
    refine .inr ⟨by rw [hreply, hanswer], ?_, hnone', hserves' hs₁, ?_⟩
    · rw [hqueue, hnone, List.append_nil]
    · rw [hrequests', hrequests, List.replicate_succ', List.append_assoc]

/-- Before the first round. -/
theorem paged_start (served : Serves s₀.store.tables (some limit) s₀.store) (nonempty : keys ≠ []) :
    Paged table keys options limit s₀ [] s₀ (.ofTable table keys options) where
  serves := served
  failures := rfl
  requests := (List.append_nil _).symm
  current_eq := by
    rw [List.length_nil, Nat.zero_mul, List.drop_zero,
      BatchRequest.ofTable_eq_pending table options nonempty]
  rounds_eq := rfl
  length_le := Nat.zero_le _

/-- **A further round is the one of the next page.** -/
theorem Paged.round (h : Paged table keys options limit s₀ rounds s current)
    (positive : 0 < limit) (paged : s₀.store.pageLimit = some limit) {response : BatchResponse}
    (asking : current.isEmpty = false)
    (repeated : Repeats Store.transport policy current s failures s₁)
    (replied : s₁.call Store.transport current = (s₂, .ok response)) :
    Paged table keys options limit s₀ (rounds ++ [⟨current, failures, .ok response⟩]) s₂
      (response.next?.getD ∅) := by
  have hless := (h.isEmpty_iff positive).mp asking
  have hcurrent := h.current_eq_pageRequest positive asking
  obtain ⟨e, hnot, -⟩ | ⟨hresponse, hfailures, hnone, hserves, hrequests⟩ :=
    h.called paged repeated replied
  · cases hnot
  obtain rfl := Except.ok.inj hresponse
  have hround : (⟨current, failures, .ok (s₀.store.answer current)⟩ : Round) =
      pageRound table keys options limit s₀ rounds.length := by
    rw [pageRound, ← hcurrent, ← hfailures, h.failures]
  refine {
    serves := hserves
    failures := by rw [hnone, if_neg (by simp)]
    requests := ?_
    current_eq := ?_
    rounds_eq := ?_
    length_le := by simpa using Nat.succ_le_of_lt hless }
  · rw [hrequests, h.requests, Round.sent_append, Round.requests, List.append_assoc]
  · rw [hcurrent, pageRequest, Store.next_answer, drop_pageSize paged, List.length_append,
      List.length_singleton]
  · rw [List.length_append, List.length_singleton, List.range_succ, List.map_append, ← h.rounds_eq,
      hround, List.map_singleton]

theorem Passes.paged (h : Passes Store.transport policy s₀ (.ofTable table keys options) rounds s
      current) (nonempty : keys ≠ []) (positive : 0 < limit)
    (served : Serves s₀.store.tables (some limit) s₀.store) :
    Paged table keys options limit s₀ rounds s current := by
  induction h with
  | start => exact paged_start served nonempty
  | round before asking repeated replied fits ih =>
      exact ih.round positive served.limit_eq asking repeated replied

/-- A round leaves no more keys than it asked for. -/
theorem Paged.fits (h : Paged table keys options limit s₀ rounds s current) {r : Round}
    {next : BatchRequest} (h' : Paged table keys options limit s₀ (rounds ++ [r]) s₁ next) :
    next.keyCount ≤ current.keyCount := by
  rw [h'.current_eq, h.current_eq, BatchRequest.keyCount_pending, BatchRequest.keyCount_pending,
    List.length_drop, List.length_drop, List.length_append, List.length_singleton, Nat.succ_mul]
  omega

/-- As many rounds as there are pages can be gone through. -/
theorem exists_passes (nonempty : keys ≠ []) (positive : 0 < limit)
    (served : Serves s₀.store.tables (some limit) s₀.store) (uncapped : policy.maxRetries = none) :
    ∀ count ≤ keys.length ⌈/⌉ limit, ∃ rounds s current, Passes Store.transport policy s₀
      (.ofTable table keys options) rounds s current ∧ rounds.length = count := by
  intro count
  induction count with
  | zero => exact fun _ => ⟨[], s₀, _, .start, rfl⟩
  | succ count ih =>
      intro hcount
      obtain ⟨rounds, s, current, hpasses, rfl⟩ := ih (Nat.le_of_succ_le hcount)
      have hpaged := hpasses.paged nonempty positive served
      have asking := (hpaged.isEmpty_iff positive).mpr hcount
      obtain ⟨s₁, repeated⟩ := exists_repeats uncapped current hpaged.serves.retryable
      have hnone : s₁.store.failures = [] := List.self_eq_append_right.mp repeated.store.1
      obtain ⟨s₂, reply, called⟩ : ∃ s₂ reply, s₁.call Store.transport current = (s₂, reply) :=
        ⟨_, _, rfl⟩
      rcases (Store.called_of_call called).replied with ⟨e, -, hfirst⟩ | ⟨rfl, -, -⟩
      · rw [hnone] at hfirst
        cases hfirst
      · have hround := hpaged.round positive served.limit_eq asking repeated called
        exact ⟨_, s₂, _, hpasses.round asking repeated called (hpaged.fits hround), by simp⟩

/-! ### The end of the pages -/

/-- The items of so many pages. -/
theorem items_pages (paged : s₀.store.pageLimit = some limit) (count : Nat) :
    ((List.range count).map (pageRound table keys options limit s₀)).flatMap (Round.items table) =
      (keys.take (count * limit)).filterMap (s₀.store.lookup table) := by
  induction count with
  | zero => simp
  | succ count ih =>
      have hpage : (pageRound table keys options limit s₀ count).items table =
          ((keys.drop (count * limit)).take limit).filterMap (s₀.store.lookup table) := by
        show (s₀.store.answer (pageRequest table keys options limit count)).itemsFor table = _
        rw [pageRequest, Store.itemsFor_answer, Store.pageSize_eq_min paged, Nat.min_comm,
          ← List.take_eq_take_min]
      rw [List.range_succ, List.map_append, List.flatMap_append, ih, List.map_singleton,
        List.flatMap_singleton, hpage, Nat.succ_mul, List.take_add, List.filterMap_append]

/-- The calls of so many pages: one for each, and one for each failure. -/
theorem length_sent_pages (count : Nat) :
    (Round.sent ((List.range count).map (pageRound table keys options limit s₀))).length =
      count + if count = 0 then 0 else s₀.store.failures.length := by
  induction count with
  | zero => rfl
  | succ count ih =>
      rw [List.range_succ, List.map_append, List.map_singleton, Round.sent_append,
        List.length_append, ih, Round.length_requests, pageRound]
      by_cases hfirst : count = 0
      · simp [hfirst, Nat.add_comm]
      · simp [hfirst]
        omega

/-- The requests of the pages are different. -/
theorem nodup_pageRequests (positive : 0 < limit) :
    ((List.range (keys.length ⌈/⌉ limit)).map (pageRequest table keys options limit)).Nodup := by
  have hlt : ∀ {i}, i ∈ List.range (keys.length ⌈/⌉ limit) → i * limit < keys.length := by
    intro i hi
    rw [List.mem_range, lt_pages_iff positive, Ne, List.drop_eq_nil_iff, not_le] at hi
    exact hi
  refine List.Nodup.map_on (fun i hi j hj he => ?_) List.nodup_range
  have hcount := congrArg BatchRequest.keyCount he
  simp only [pageRequest, BatchRequest.keyCount_ofTable, List.length_drop] at hcount
  have hi' := hlt hi
  have hj' := hlt hj
  have hproduct : i * limit = j * limit := by omega
  exact Nat.eq_of_mul_eq_mul_right positive hproduct

/-- **A request for keys ends after the round of its last page**, and in no other way. -/
theorem Ends.pages {result : Except Error (List NativeItem)}
    (h : Ends Store.transport policy table s₀ (.ofTable table keys options) rounds s result)
    (nonempty : keys ≠ []) (positive : 0 < limit)
    (served : Serves s₀.store.tables (some limit) s₀.store) (uncapped : policy.maxRetries = none) :
    rounds = (List.range (keys.length ⌈/⌉ limit)).map (pageRound table keys options limit s₀) ∧
      result = .ok (keys.filterMap (s₀.store.lookup table)) ∧
      s.store.requests = s₀.store.requests ++ Round.sent rounds := by
  cases h with
  | done passed nothing =>
      have hpaged := passed.paged nonempty positive served
      have hnot : ¬rounds.length < keys.length ⌈/⌉ limit := by
        rw [← hpaged.isEmpty_iff positive, nothing]
        exact nofun
      have hlength := Nat.le_antisymm hpaged.length_le (Nat.le_of_not_lt hnot)
      have hrounds := hlength ▸ hpaged.rounds_eq
      have hall : keys.take (keys.length ⌈/⌉ limit * limit) = keys := by
        refine List.take_of_length_le ?_
        rw [Nat.mul_comm]
        exact (ceilDiv_le_iff_le_mul positive).mp le_rfl
      refine ⟨hrounds, ?_, hpaged.requests⟩
      rw [hrounds, items_pages served.limit_eq, hall]
  | refused passed asking repeated failed fatal =>
      have hpaged := passed.paged nonempty positive served
      rcases hpaged.called served.limit_eq repeated failed with ⟨e, he, hretryable⟩ | ⟨hok, -⟩
      · cases he
        rw [fatal] at hretryable
        cases hretryable
      · cases hok
  | exhausted passed asking repeated failed retryable limited =>
      rw [uncapped] at limited
      cases limited
  | grown passed asking repeated replied left more =>
      have hpaged := passed.paged nonempty positive served
      have hfits := hpaged.fits (hpaged.round positive served.limit_eq asking repeated replied)
      rw [left, Option.getD_some] at hfits
      omega

end Pager

namespace Getter

open Pager

/-- **Paging is exact and keeps the options.**  A request for some keys of the table, of a store
that looks up at most `limit` keys a call and has any failures queued that are worth another try,
goes through as many rounds as the keys have pages.  Round `i` asks for the keys without their
first `i` pages, under the options of the request, and so does every further call in the round;
these are all the requests that the store sees.  It goes through no other rounds, the requests of
the rounds are different, and the items of all keys are its result. -/
theorem page_rounds {M : Type} (g : Getter M) (options : ReadOptions) (session : Session Store)
    {keys : List NativeKey} {limit : Nat} (nonempty : keys ≠ []) (positive : 0 < limit)
    (paged : session.store.pageLimit = some limit) (uncapped : g.config.retry.maxRetries = none)
    (retryable : ∀ e ∈ session.store.failures, e.isRetryable = true) :
    let request := BatchRequest.ofTable g.table.name keys options
    let found := keys.filterMap (session.store.lookup g.table.name)
    ∃ rounds s,
      g.page Store.transport session request = (s, some (.ok found)) ∧
      s.store.requests = session.store.requests ++ Round.sent rounds ∧
      (∀ rounds' s' result, Pager.Ends Store.transport g.config.retry g.table.name session
        request rounds' s' result ↔ rounds' = rounds ∧ s' = s ∧ result = .ok found) ∧
      rounds.length = keys.length ⌈/⌉ limit ∧ (rounds.map Round.request).Nodup ∧
      ∀ i r, rounds[i]? = some r →
        r.requests = List.replicate (r.failures.length + 1)
          (.ofTable g.table.name (keys.drop (i * limit)) options) ∧
        r.failures = if i = 0 then session.store.failures else [] := by
  intro request found
  have served : Fetch.Serves session.store.tables (some limit) session.store :=
    ⟨rfl, paged, retryable⟩
  obtain ⟨rounds, s, current, hpasses, hlength⟩ : ∃ rounds s current,
      Passes Store.transport g.config.retry session request rounds s current ∧
        rounds.length = keys.length ⌈/⌉ limit :=
    exists_passes nonempty positive served uncapped _ le_rfl
  have hpaged := hpasses.paged nonempty positive served
  have hnothing : current.isEmpty = true := by
    rw [← Bool.not_eq_false, hpaged.isEmpty_iff positive, hlength]
    exact Nat.lt_irrefl _
  have hends : Pager.Ends Store.transport g.config.retry g.table.name session request rounds s _ :=
    .done hpasses hnothing
  obtain ⟨hrounds, hresult, hrequests⟩ := hends.pages nonempty positive served uncapped
  rw [hresult] at hends
  have hpages : keys.length ⌈/⌉ limit ≤ keys.length :=
    (ceilDiv_le_iff_le_mul positive).mpr (Nat.le_mul_of_pos_left _ positive)
  -- The fuel of `page` is enough for a call to each key and one after each failure.
  have hcalls : (Round.sent rounds).length ≤
      session.store.failures.length + keys.length + 1 := by
    rw [hrounds, length_sent_pages]
    split <;> omega
  refine ⟨rounds, s, hends.run_eq hcalls, hrequests, fun rounds' s' result => ⟨fun h => ?_, ?_⟩,
    hlength, ?_, fun i r hr => ?_⟩
  · obtain ⟨hrounds', hresult', -⟩ := h.pages nonempty positive served uncapped
    have hsame : rounds' = rounds := hrounds'.trans hrounds.symm
    have hrun := h.run_eq (hsame ▸ hcalls)
    rw [hends.run_eq hcalls] at hrun
    exact ⟨hsame, (congrArg Prod.fst hrun).symm, hresult'⟩
  · rintro ⟨rfl, rfl, rfl⟩
    exact hends
  · rw [hrounds, List.map_map]
    exact nodup_pageRequests positive
  · rw [hrounds, List.getElem?_map, Option.map_eq_some_iff] at hr
    obtain ⟨j, hj, rfl⟩ := hr
    obtain ⟨-, rfl⟩ := List.getElem?_eq_some_iff.mp hj
    rw [List.getElem_range]
    exact ⟨rfl, rfl⟩

/-- Four keys, two to a page, and two failures that are queued: the first request is sent three
times, the second once, and both say how the keys are read. -/
theorem page_rounds_full_pages :
    let key (id : String) : NativeKey := Entries.insert ∅ "id" (.leaf (.text id))
    let options := (∅ : ReadOptions).withConsistentRead true
    let g : Getter Item := {
      table := .plain "users" (Schema.ofHashKey "id" .string)
      config := { retry := ⟨none, 100, 5000, 2.0⟩ } }
    let keys := [key "a", key "b", key "c", key "d"]
    let session : Session Store := { store := {
      tables := Entries.insert ∅ "users" [key "d", key "a"]
      failures := [.throttled "slow down", .transport "reset" true], pageLimit := some 2 } }
    keys ≠ [] ∧ 0 < 2 ∧ session.store.pageLimit = some 2 ∧ g.config.retry.maxRetries = none ∧
      (∀ e ∈ session.store.failures, e.isRetryable = true) ∧
      ∃ s, g.page Store.transport session (.ofTable "users" keys options) =
          (s, some (.ok [key "a", key "d"])) ∧
        s.store.requests = List.replicate 3 (.ofTable "users" keys options) ++
          [.ofTable "users" [key "c", key "d"] options] := by
  intro key options g keys session
  have nonempty : keys ≠ [] := List.cons_ne_nil _ _
  have retryable : ∀ e ∈ session.store.failures, e.isRetryable = true := by
    simp [session, Error.isRetryable]
  obtain ⟨rounds, s, hpage, hrequests, -, hlength, -, heach⟩ :=
    page_rounds g options session nonempty Nat.two_pos rfl rfl retryable
  have htwo : rounds.length = 2 := hlength.trans (by decide)
  obtain ⟨first, second, rfl⟩ := List.length_eq_two.mp htwo
  obtain ⟨hfirst, hfailures⟩ := heach 0 first rfl
  obtain ⟨hsecond, hnone⟩ := heach 1 second rfl
  have hfound : keys.filterMap (session.store.lookup "users") = [key "a", key "d"] := by
    decide +kernel
  refine ⟨nonempty, Nat.two_pos, rfl, rfl, retryable, s, ?_, ?_⟩
  · rw [← hfound]
    exact hpage
  · rw [hrequests, Round.sent, List.flatMap_cons, List.flatMap_singleton, hfirst, hsecond,
      hfailures, hnone]
    rfl

end Getter

end ItemStore
