/-
The order in which buckets complete does not show in the result.

A fetch that ends well has, for every bucket, the result of that bucket, once each and in the
order of the buckets (`Course.results`).  What the result of a bucket is depends on nothing
but the replies it took: told these replies by itself it sends the same requests and comes to
the same (`replay_of_path`).

If the transport's replies are a function of the request, then what a bucket will be told is
settled before it is started (`Pager.Settles`).  That some order of steps ends well says of
every bucket that it will end well.  This is a `Rule` of one bucket (`settlingRule`), and the
calls that are ahead of each bucket bound the steps of any order, so every order ends well
and with the same result (`surely_of_ends`).
-/
import Mathlib.Logic.Function.Basic
import ItemStore.Proofs.Batch.Course

namespace ItemStore

namespace Pager

variable {policy : RetryPolicy} {table : String}
  {answer : BatchRequest → Except Error BatchResponse}

/-! ### Where a pager ends if it is told how every request is answered -/

/-- A pager is done after a number of calls, with these items. -/
inductive Settles (policy : RetryPolicy) (table : String)
    (answer : BatchRequest → Except Error BatchResponse) : Nat → Pager → List NativeItem → Prop
  | done {p : Pager} (done : p.isDone = true) : Settles policy table answer 0 p p.items
  | call {n : Nat} {p p' : Pager} {items : List NativeItem} {wait : Nat} (going : p.isDone = false)
      (received : p.receive policy table (answer p.request) = .ok (p', wait))
      (rest : Settles policy table answer n p' items) : Settles policy table answer (n + 1) p items

/-- It ends in one way only. -/
theorem Settles.unique {n n' : Nat} {p : Pager} {items items' : List NativeItem}
    (h : Settles policy table answer n p items) :
    Settles policy table answer n' p items' → n = n' ∧ items = items' := by
  induction h generalizing n' with
  | done done =>
      intro h'
      cases h' with
      | done => exact ⟨rfl, rfl⟩
      | call going => simp [done] at going
  | call going received rest ih =>
      intro h'
      cases h' with
      | done done => simp [going] at done
      | call going' received' rest' =>
          cases received.symm.trans received'
          obtain ⟨rfl, rfl⟩ := ih rest'
          exact ⟨rfl, rfl⟩

/-- A pager that went a way through such replies settles where it is at the end. -/
theorem Path.settles {p₀ p : Pager} {log : List Exchange} (h : Path policy table p₀ log p)
    (hanswer : ∀ x ∈ log, x.reply = answer x.request) :
    ∀ {n : Nat} {items : List NativeItem}, Settles policy table answer n p items →
      ∃ n, Settles policy table answer n p₀ items := by
  induction h with
  | start => exact fun hrest => ⟨_, hrest⟩
  | @reply log p p' reply wait before going received ih =>
      intro n items hrest
      have hreply : reply = answer p.request := hanswer ⟨p.request, reply⟩ (by simp)
      exact ih (fun x hx => hanswer x (List.mem_append_left _ hx))
        (.call going (hreply ▸ received) hrest)

/-- The calls ahead of a pager that settles. -/
noncomputable def callsAhead (policy : RetryPolicy) (table : String)
    (answer : BatchRequest → Except Error BatchResponse) (p : Pager) : Nat :=
  Classical.epsilon fun n => ∃ items, Settles policy table answer n p items

theorem Settles.callsAhead_eq {n : Nat} {p : Pager} {items : List NativeItem}
    (h : Settles policy table answer n p items) : callsAhead policy table answer p = n := by
  obtain ⟨items', h'⟩ := Classical.epsilon_spec (p := fun n => ∃ items,
    Settles policy table answer n p items) ⟨n, items, h⟩
  exact (h'.unique h).1

end Pager

namespace Fetch

variable {σ M : Type} {plan : FetchPlan M} {t : Transport σ}

/-! ### The results of all buckets -/

/-- If every bucket is done once, its result is a function of its index. -/
theorem exists_results {done : List (Nat × List M)} (hnodup : (done.map (·.1)).Nodup) :
    ∃ results : Nat → List M, ∀ d ∈ done, d.2 = results d.1 := by
  induction done with
  | nil => exact ⟨fun _ => [], by simp⟩
  | cons d done ih =>
      rw [List.map_cons, List.nodup_cons] at hnodup
      obtain ⟨results, hresults⟩ := ih hnodup.2
      refine ⟨Function.update results d.1 d.2, ?_⟩
      intro e he
      rcases List.mem_cons.mp he with rfl | hrest
      · rw [Function.update_self]
      · have hne : e.1 ≠ d.1 := fun hindex => hnodup.1 (hindex ▸ List.mem_map_of_mem hrest)
        rw [Function.update_of_ne hne]
        exact hresults e hrest

/-- **A fetch that has ended well has the result of every bucket, in the order of the
buckets.** -/
theorem Course.results {session : Session σ} {requests : List BatchRequest}
    {log : List (Nat × Exchange)} {s : Fetch σ M} {models : List M}
    (h : Course plan t (Fetch.start plan session requests) log s)
    (ended : s.result? = some (.ok models)) :
    ∃ results : Nat → List M, models = (List.range requests.length).flatMap results ∧
      ∀ i request, requests[i]? = some request →
        ∃ p, Pager.Path plan.policy plan.table { request } (own i log) p ∧ p.isDone = true ∧
          plan.build p.items = .ok (results i) := by
  obtain ⟨going, hflights, hwaiting, hmodels⟩ := result?_eq_ok_iff.mp ended
  have hfinished : (s.finished.map (·.1)).Perm (List.range requests.length) := by
    simpa [indices, hwaiting, hflights] using h.indices_perm going
  obtain ⟨results, hresults⟩ := exists_results (hfinished.nodup_iff.mpr List.nodup_range)
  refine ⟨results, hmodels ▸ models_eq hfinished hresults, fun i request hrequest => ?_⟩
  have hi : i ∈ s.finished.map (·.1) :=
    hfinished.mem_iff.mpr (List.mem_range.mpr (List.getElem?_eq_some_iff.mp hrequest).1)
  obtain ⟨d, hd, rfl⟩ := List.mem_map.mp hi
  obtain ⟨request', p, hrequest', hpath, hdone, hbuild⟩ := (h.recorded going).finished d hd
  cases hrequest.symm.trans hrequest'
  exact ⟨p, hpath, hdone, hresults d hd ▸ hbuild⟩

/-! ### Buckets that settle -/

section Settling

variable {answer : BatchRequest → Except Error BatchResponse} {results : Nat → List M}

/-- Every bucket settles on items of which its result is built. -/
def settlingRule (plan : FetchPlan M) (hanswer : ∀ x r, (t.reply x r).2 = answer r)
    (results : Nat → List M) : Rule plan t where
  store _ := True
  flight i p calling := (calling = true → p.isDone = false) ∧
    ∃ n items, Pager.Settles plan.policy plan.table answer n p items ∧
      plan.build items = .ok (results i)
  result i models := models = results i
  error _ := False
  sends := fun _ ⟨_, hp⟩ left => ⟨trivial, fun _ => left, hp⟩
  takes := by
    intro x i p pager wait _ ⟨hcalling, n, items, hsettles, hbuild⟩ hreceive
    rw [hanswer] at hreceive
    cases hsettles with
    | done done => simp [done] at hcalling
    | call going received rest =>
        cases received.symm.trans hreceive
        exact ⟨trivial, nofun, _, items, rest, hbuild⟩
  fails := by
    intro x i p e _ ⟨hcalling, n, items, hsettles, hbuild⟩ hreceive
    rw [hanswer] at hreceive
    cases hsettles with
    | done done => simp [done] at hcalling
    | call going received rest => cases received.symm.trans hreceive
  finishes := by
    intro i p models ⟨_, n, items, hsettles, hbuild⟩ hdone hmodels
    cases hsettles with
    | done => exact Except.ok.inj (hmodels.symm.trans hbuild)
    | call going => simp [hdone] at going
  breaks := by
    intro i p e ⟨_, n, items, hsettles, hbuild⟩ hdone herror
    cases hsettles with
    | done => cases herror.symm.trans hbuild
    | call going => simp [hdone] at going

/-- The calls ahead of every bucket. -/
noncomputable def settlingMeasure (plan : FetchPlan M)
    (answer : BatchRequest → Except Error BatchResponse) : Measure σ where
  spare _ := 0
  ahead _ p := p.callsAhead plan.policy plan.table answer

theorem settlingRule_lowers (hanswer : ∀ x r, (t.reply x r).2 = answer r) :
    (settlingRule plan hanswer results).Lowers (settlingMeasure plan answer) where
  send _ _ := Nat.le_refl _
  take := by
    intro x i p pager wait _ ⟨hcalling, n, items, hsettles, _⟩ hreceive
    rw [hanswer] at hreceive
    cases hsettles with
    | done done => simp [done] at hcalling
    | @call n _ _ _ _ going received rest =>
        cases received.symm.trans hreceive
        have hbefore := (Pager.Settles.call going received rest).callsAhead_eq
        have hafter := rest.callsAhead_eq
        simp only [settlingMeasure, hbefore, hafter]
        omega

/-- **If every bucket settles, no order of steps fails or goes on for ever, and all end with
the same result.** -/
theorem reaches_settled (plan : FetchPlan M) (session : Session σ) {requests : List BatchRequest}
    (hconcurrency : 0 < plan.concurrency) (hanswer : ∀ x r, (t.reply x r).2 = answer r)
    (hsettles : ∀ i request, requests[i]? = some request → ∃ n items,
      Pager.Settles plan.policy plan.table answer n { request } items ∧
        plan.build items = .ok (results i)) :
    ∃ bound, ∀ n s, Reaches plan t (start plan session requests) n s →
      s.failure = none ∧ n ≤ bound ∧ (s.flights = [] →
        s.result? = some (.ok ((List.range requests.length).flatMap results))) := by
  refine ⟨(settlingMeasure plan answer).left (start plan session requests), fun n s h => ?_⟩
  have hnodup := (start_indices plan session requests).nodup_iff.mpr List.nodup_range
  have hholds₀ : (settlingRule plan hanswer results).Holds (start plan session requests) :=
    start_holds trivial fun i hi =>
      ⟨nofun, hsettles i requests[i] (List.getElem?_eq_getElem hi)⟩
  have hholds := Rule.holds_of_reaches hnodup hholds₀ h
  have hgoing : s.failure = none := by
    cases hfailure : s.failure with
    | none => rfl
    | some e => exact (hholds.failure e hfailure).elim
  have hbound := left_of_reaches (settlingRule_lowers hanswer) hnodup hholds₀ h hgoing
  exact ⟨hgoing, by omega, fun hflights =>
    result_of_reaches hconcurrency h hgoing hflights results hholds.finished⟩

end Settling

end Fetch

/-! ### The results of a getter -/

namespace Getter

variable {σ M : Type}

/-- One way for a fetch of records to end, and the replies taken on the way: a key can not be
built, or some order of steps leads to the end. -/
inductive Ends (g : Getter M) (t : Transport σ) (session : Session σ) (records : List KeyRecord)
    (options : ReadOptions) : List (Nat × Exchange) → Except Error (List M) → Prop
  | unkeyed {e : Error} (failed : g.buildKeys records = .error e) :
      Ends g t session records options [] (.error e)
  | fetched {keys : List NativeKey} {log : List (Nat × Exchange)} {s : Fetch σ M}
      {r : Except Error (List M)} (built : g.buildKeys records = .ok keys)
      (course : Fetch.Course (g.planFor keys options) t (g.startFor session keys options) log s)
      (ended : s.result? = some r) : Ends g t session records options log r

/-- Whatever the order of the steps, a fetch of records comes to an end, and to this one. -/
structure Surely (g : Getter M) (t : Transport σ) (session : Session σ)
    (records : List KeyRecord) (options : ReadOptions) (r : Except Error (List M)) : Prop where
  unkeyed : ∀ e, g.buildKeys records = .error e → r = .error e
  /-- No order is longer than a bound, and where no bucket can go on the result is there. -/
  fetched : ∀ keys, g.buildKeys records = .ok keys → ∃ bound, ∀ n s,
    Fetch.Reaches (g.planFor keys options) t (g.startFor session keys options) n s →
    n ≤ bound ∧ (s.failure ≠ none ∨ s.flights = [] → s.result? = some r)

/-- The same getter with another limit on the buckets in flight. -/
def withConcurrency (g : Getter M) (concurrency : Option Nat) : Getter M :=
  { g with config := { g.config with maxConcurrency := concurrency } }

/-- What a bucket is by itself, told these replies: the requests it sends, and its result. -/
def replay (g : Getter M) (replies : List (Except Error BatchResponse)) (request : BatchRequest) :
    List BatchRequest × Option (Except Error (List M)) :=
  let (session, items) := g.page .prepared { store := replies } request
  (session.calls.map (·.2), items.map fun items => items >>= List.mapM g.buildModel)

variable {g : Getter M} {t : Transport σ} {session : Session σ} {records : List KeyRecord}
  {options : ReadOptions}

/-- What getting gives is one way for the fetch to end. -/
theorem ends_of_getWithin {fuel : Nat} {r : Except Error (List M)}
    (h : (g.getWithin fuel t session records options).2 = some r) :
    ∃ log, g.Ends t session records options log r := by
  cases hkeys : g.buildKeys records with
  | error e =>
      rw [getWithin, hkeys] at h
      cases h
      exact ⟨[], .unkeyed hkeys⟩
  | ok keys =>
      obtain ⟨n, s, hreach, -, hget⟩ := getWithin_reaches hkeys fuel t session options
      obtain ⟨log, hcourse⟩ := hreach.course
      exact ⟨log, .fetched hkeys hcourse (by rw [hget] at h; exact h)⟩

theorem Surely.eq_of_ends {r r' : Except Error (List M)} {log : List (Nat × Exchange)}
    (h : g.Surely t session records options r) (ends : g.Ends t session records options log r') :
    r' = r := by
  cases ends with
  | unkeyed failed => exact (h.unkeyed _ failed).symm
  | @fetched keys log s _ built course ended =>
      obtain ⟨bound, hbound⟩ := h.fetched keys built
      obtain ⟨n, hreach⟩ := course.reaches
      have hover : s.failure ≠ none ∨ s.flights = [] := by
        unfold Fetch.result? at ended
        cases hfailure : s.failure with
        | some e => exact Or.inl nofun
        | none =>
            simp only [hfailure, Option.ite_none_right_eq_some, Bool.and_eq_true,
              List.isEmpty_iff] at ended
            exact Or.inr ended.1.1
      exact Option.some.inj (ended.symm.trans ((hbound n s hreach).2 hover))

/-- A bucket that is done is by itself what it was among the others. -/
theorem replay_of_path {request : BatchRequest} {log : List Exchange} {p : Pager}
    (h : Pager.Path g.config.retry g.table.name { request } log p) (done : p.isDone = true)
    {models : List M} (built : p.items.mapM g.buildModel = .ok models) :
    g.replay (log.map (·.reply)) request = (log.map (·.request), some (.ok models)) := by
  obtain ⟨s, hrun, hcalls⟩ := h.run_prepared done (request.keyCount + 1)
  have hpage : g.page .prepared { store := log.map (·.reply) } request =
      (s, some (.ok p.items)) := by
    rw [← hrun, page]
    simp [Transport.prepared, Nat.add_assoc]
  rw [replay, hpage]
  simp [hcalls, built, bind, Except.bind]

/-- If one order of steps ends well, and the transport's replies are a function of the
request, then so does every order, with as many buckets in flight and as much time between
the steps as may be. -/
theorem surely_of_ends {answer : BatchRequest → Except Error BatchResponse}
    (hanswer : ∀ x r, (t.reply x r).2 = answer r) {log : List (Nat × Exchange)} {models : List M}
    (ends : g.Ends t session records options log (.ok models)) {σ' : Type} {t' : Transport σ'}
    (hanswer' : ∀ x r, (t'.reply x r).2 = answer r) (session' : Session σ')
    (concurrency : Option Nat) :
    (g.withConcurrency concurrency).Surely t' session' records options (.ok models) := by
  cases ends with
  | @fetched keys _ s _ built course ended =>
      obtain ⟨results, hmodels, hpaths⟩ := course.results ended
      have hsettles : ∀ i request, (g.requests keys options)[i]? = some request → ∃ n items,
          Pager.Settles g.config.retry g.table.name answer n { request } items ∧
            items.mapM g.buildModel = .ok (results i) := by
        intro i request hrequest
        obtain ⟨p, hpath, hdone, hbuild⟩ := hpaths i request hrequest
        have hreplies : ∀ x ∈ Fetch.own i log, x.reply = answer x.request := by
          intro x hx
          obtain ⟨store, hreply⟩ := course.replied (i, x) (Fetch.mem_of_mem_own hx)
          exact hreply.trans (hanswer store _)
        obtain ⟨n, hsettled⟩ := hpath.settles hreplies (.done hdone)
        exact ⟨n, p.items, hsettled, hbuild⟩
      obtain ⟨bound, hevery⟩ := Fetch.reaches_settled
        ((g.withConcurrency concurrency).planFor keys options) session' (plan_concurrency_pos _ _)
        hanswer' hsettles
      refine ⟨fun e failed => ?_, fun keys' built' => ?_⟩
      · cases built.symm.trans failed
      · cases built.symm.trans built'
        refine ⟨bound, fun n s h => ?_⟩
        obtain ⟨hgoing, hbound, hresult⟩ := hevery n s h
        refine ⟨hbound, fun hover => ?_⟩
        rw [hmodels]
        exact hresult (hover.resolve_left fun hne => hne hgoing)

/--
**Completion order does not matter.**

Getting takes one order of the steps of a fetch; let it be any.  If it ends well, its items are
those of the buckets one after another, each bucket once, and a bucket's items are what it
comes to by itself when it is told the replies it took.

If the transport's replies are a function of the request, two orders agree on whether the fetch
ends well, and on its items if it does, however many buckets are in flight and whatever the
latencies; and where one order ends well none goes on for ever.  Nothing is asked of the
failures among the replies: a request that fails once fails always.
-/
theorem ends_in_bucket_order (g : Getter M) (t : Transport σ) (session : Session σ)
    (records : List KeyRecord) (options : ReadOptions) :
    (∀ fuel r, (g.getWithin fuel t session records options).2 = some r →
      ∃ log, g.Ends t session records options log r) ∧
    (∀ log models, g.Ends t session records options log (.ok models) →
      ∃ keys results, g.buildKeys records = .ok keys ∧
        models = (List.range (g.requests keys options).length).flatMap results ∧
        ∀ i request, (g.requests keys options)[i]? = some request →
          g.replay ((Fetch.own i log).map (·.reply)) request =
            ((Fetch.own i log).map (·.request), some (.ok (results i)))) ∧
    ∀ (answer : BatchRequest → Except Error BatchResponse) (σ' : Type) (t' : Transport σ')
      (session' : Session σ') (concurrency : Option Nat),
      (∀ x r, (t.reply x r).2 = answer r) → (∀ x r, (t'.reply x r).2 = answer r) →
      let g' := g.withConcurrency concurrency
      (∀ log r log' r', g.Ends t session records options log r →
        g'.Ends t' session' records options log' r' → ∀ models, r = .ok models ↔ r' = .ok models) ∧
      ∀ log models, g.Ends t session records options log (.ok models) →
        g'.Surely t' session' records options (.ok models) := by
  refine ⟨fun fuel r => ends_of_getWithin, fun log models ends => ?_, ?_⟩
  · cases ends with
    | @fetched keys _ s _ built course ended =>
        obtain ⟨results, hmodels, hpaths⟩ := course.results ended
        refine ⟨keys, results, built, hmodels, fun i request hrequest => ?_⟩
        obtain ⟨p, hpath, hdone, hbuild⟩ := hpaths i request hrequest
        exact replay_of_path hpath hdone hbuild
  · intro answer σ' t' session' concurrency hanswer hanswer' g'
    refine ⟨?_, fun log models ends => surely_of_ends hanswer ends hanswer' session' concurrency⟩
    intro log r log' r' ends ends' models
    constructor
    · rintro rfl
      exact (surely_of_ends hanswer ends hanswer' session' concurrency).eq_of_ends ends'
    · rintro rfl
      exact (surely_of_ends hanswer' ends' hanswer session g.config.maxConcurrency).eq_of_ends ends

/-- Two buckets of one key each, of which the second is answered first; and the same one after
the other. -/
theorem ends_in_bucket_order_late_first :
    let item (id : String) : NativeItem := Entries.insert ∅ "id" (.leaf (.text id))
    let answer (r : BatchRequest) : Except Error BatchResponse :=
      .ok { items := Entries.insert ∅ "users" ((r.tables.find? "users").getD {}).keys }
    let late : Transport Nat := {
      send := fun sent _ => (sent + 1, if sent = 0 then 10 else 1)
      reply := fun sent r => (sent, answer r)
      backlog := fun _ => 0 }
    let prompt : Transport Unit := {
      send := fun _ _ => ((), 0), reply := fun _ r => ((), answer r), backlog := fun _ => 0 }
    let g : Getter Item := {
      table := .plain "users" (Schema.ofHashKey "id" .string), config := { maxBatchSize := 1 } }
    let records : List KeyRecord := [{ hash := .text "a" }, { hash := .text "b" }]
    let keys := [item "a", item "b"]
    let done := (g.startFor { store := 0 } keys ∅).run (g.planFor keys ∅) late 9
    let found := [(item "a").decode, (item "b").decode]
    done.finished = [(1, [(item "b").decode]), (0, [(item "a").decode])] ∧
      (g.getWithin 9 late { store := 0 } records ∅).2 = some (.ok found) ∧
      (g.withConcurrency (some 1)).Surely prompt { store := () } records ∅ (.ok found) := by
  intro item answer late prompt g records keys done found
  have hfinished : done.finished = [(1, [(item "b").decode]), (0, [(item "a").decode])] := by
    decide +kernel
  have hget : (g.getWithin 9 late { store := 0 } records ∅).2 = some (.ok found) := by
    have hkeys : g.buildKeys records = .ok keys := by decide +kernel
    have hover : done.failure.isNone ∧ done.flights.isEmpty ∧ done.waiting.isEmpty := by
      decide +kernel
    simp only [Option.isNone_iff_eq_none, List.isEmpty_iff] at hover
    have hmodels : done.models = (List.range 2).flatMap fun i =>
        [(item (if i = 0 then "a" else "b")).decode] := by
      refine Fetch.models_eq ?_ ?_
      · rw [hfinished]
        decide
      · rw [hfinished]
        simp
    rw [getWithin, hkeys]
    exact Fetch.result?_eq_ok_iff.mpr ⟨hover.1, hover.2.1, hover.2.2, hmodels⟩
  obtain ⟨hends, -, hsame⟩ := ends_in_bucket_order g late { store := 0 } records ∅
  obtain ⟨log, ends⟩ := hends 9 _ hget
  obtain ⟨-, hsurely⟩ := hsame answer Unit prompt { store := () } (some 1) (fun _ _ => rfl)
    fun _ _ => rfl
  exact ⟨hfinished, hget, hsurely log found ends⟩

end Getter

end ItemStore
