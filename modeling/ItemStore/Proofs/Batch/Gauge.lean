/-
What the store's count of open calls is worth.

To the store a call is open from its request to its reply, and it keeps the number of open calls
and the greatest number there has been.  But a fetch that fails takes no further reply: the calls
that are out when it does so are never closed, and stay in the store's count when no fetch is
running any more.

A `Tally` of a trace keeps them apart, as calls that are lost.  The store's count is the number of
calls that are out and lost together, and the greatest number it has counted exceeds the greatest
number that were out by no more than the number that are lost (`Store.Counts`).  One event after
another keeps this, over all fetches that are made of the store (`Store.Served.counts`).  So both
numbers are right until a fetch fails with calls out, and the first is never right again.
-/
import ItemStore.Proofs.Batch.Concurrency
import ItemStore.Proofs.Batch.Failure
import ItemStore.Store

namespace ItemStore

/-- Calls as they are seen from outside. -/
structure Tally where
  /-- The calls that are out. -/
  out : Nat := 0
  /-- The calls that were out when their fetch came to an end. -/
  lost : Nat := 0
  /-- The most calls that were out at once. -/
  most : Nat := 0

namespace Tally

variable {M : Type}

/-- No call that is out will be answered any more. -/
def giveUp (y : Tally) : Tally :=
  { y with out := 0, lost := y.lost + y.out }

/-- An event is seen; the first error ends its fetch. -/
def after (y : Tally) : Fetch.Event M → Tally
  | .begins => y
  | .calls _ => { y with out := y.out + 1, most := max y.most (y.out + 1) }
  | .takes _ => { y with out := y.out - 1 }
  | .ends (.ok _) => y
  | .ends (.error _) => y.giveUp

def afterAll (y : Tally) (tr : List (Nat × Fetch.Event M)) : Tally :=
  tr.foldl (fun y x => y.after x.2) y

variable (y : Tally) (tr tr' : List (Nat × Fetch.Event M))

theorem afterAll_append : y.afterAll (tr ++ tr') = (y.afterAll tr).afterAll tr' :=
  List.foldl_append

@[simp] theorem afterAll_starts (is : List Nat) :
    y.afterAll (Fetch.starts (M := M) is) = y := by
  induction is with
  | nil => rfl
  | cons i is ih => exact ih

variable {tr} in
/-- No call is lost where no error is seen. -/
theorem lost_afterAll (h : ∀ d ∈ Fetch.ended tr, ∃ models, d.2 = .ok models) :
    (y.afterAll tr).lost = y.lost := by
  induction tr generalizing y with
  | nil => rfl
  | cons x tr ih =>
      have hrest : ∀ d ∈ Fetch.ended tr, ∃ models, d.2 = .ok models := fun d hd =>
        h d (by rw [← List.singleton_append, Fetch.ended_append]; exact List.mem_append_right _ hd)
      refine (ih (y.after x.2) hrest).trans ?_
      obtain ⟨i, event⟩ := x
      cases event with
      | begins => rfl
      | calls request => rfl
      | takes exchange => rfl
      | ends result =>
          obtain ⟨models, rfl⟩ : ∃ models, result = .ok models :=
            h (i, result) (Fetch.mem_ended (List.mem_cons_self ..))
          rfl

end Tally

namespace Store

variable {s : Store} {y : Tally}

/-! ### The store's count and a tally -/

/-- The store's numbers are those of the tally, but that it takes lost calls for open ones. -/
structure Counts (s : Store) (y : Tally) : Prop where
  inFlight : s.inFlight = y.out + y.lost
  least : y.most ≤ s.peak
  most : s.peak ≤ y.most + y.lost

theorem Counts.receive (h : s.Counts y) (M : Type) (request : BatchRequest) :
    (s.receive request).Counts (y.after (.calls request : Fetch.Event M)) := by
  obtain ⟨hflight, hleast, hmost⟩ := h
  refine ⟨?_, ?_, ?_⟩
  all_goals
    simp only [Store.receive, Tally.after, hflight]
    omega

theorem Counts.reply (h : s.Counts y) (hout : 0 < y.out) (M : Type) (request : BatchRequest)
    (x : Exchange) :
    (s.reply request).1.Counts (y.after (.takes x : Fetch.Event M)) := by
  obtain ⟨hflight, hleast, hmost⟩ := h
  have hclosed : (s.reply request).1.inFlight = s.inFlight - 1 ∧
      (s.reply request).1.peak = s.peak := by
    unfold Store.reply
    split <;> exact ⟨rfl, rfl⟩
  refine ⟨?_, ?_, ?_⟩
  all_goals
    simp only [hclosed, Tally.after]
    omega

theorem Counts.giveUp (h : s.Counts y) : s.Counts y.giveUp := by
  obtain ⟨hflight, hleast, hmost⟩ := h
  refine ⟨?_, hleast, ?_⟩
  all_goals
    simp only [Tally.giveUp]
    omega

end Store

namespace Fetch

variable {M : Type} {plan : FetchPlan M} {s s' : Fetch Store M} {f : Flight} {y : Tally}
  {tr : List (Nat × Event M)}

/-! ### One fetch -/

/-- The store's count is that of the tally, whose calls are those of the buckets as long as the
fetch goes on. -/
structure Tallied (y : Tally) (s : Fetch Store M) : Prop where
  counts : s.session.store.Counts y
  going : s.failure = none → y.out = s.out fun _ => true
  failed : s.failure ≠ none → y.out = 0

/-- A fetch that has ended has no call out: one that failed has given them up, and one that ended
well has nothing in flight. -/
theorem Tallied.out_eq_zero (h : Tallied y s) (ended : s.result? ≠ none) : y.out = 0 := by
  obtain ⟨result, hresult⟩ := Option.ne_none_iff_exists'.mp ended
  cases result with
  | ok models =>
      obtain ⟨hgoing, hflights, -⟩ := result?_eq_ok_iff.mp hresult
      rw [h.going hgoing, out, hflights]
      rfl
  | error e =>
      have hfailure : s.failure = some e := result?_eq_error_iff.mp hresult
      exact h.failed (by rw [hfailure]; exact Option.some_ne_none e)

/-- Events that begin buckets are nothing to a tally. -/
theorem afterAll_seen (y : Tally) (plan : FetchPlan M) (s : Fetch Store M) (f : Flight)
    (s' : Fetch Store M) :
    y.afterAll (s.seen plan Store.transport f s') =
      (s.doing plan Store.transport f).foldl Tally.after y := by
  rw [seen, Tally.afterAll_append, Tally.afterAll_starts, Tally.afterAll, List.foldl_map]

theorem tallied_of_goes (hnodup : (s.flights.map (·.index)).Nodup) (mem : f ∈ s.flights)
    (h : Goes plan Store.transport s f s') (going : s.failure = none) (before : Tallied y s) :
    Tallied (y.afterAll (s.seen plan Store.transport f s')) s' := by
  have hout := before.going going
  rw [out_of_perm (flights_perm hnodup mem)] at hout
  rw [afterAll_seen, doing]
  cases h with
  | sends due idle left session flights waiting finished failure =>
      simp only [idle, left, Bool.false_eq_true, if_false, List.foldl_cons, List.foldl_nil]
      refine ⟨?_, fun _ => ?_, fun failed => absurd (failure.trans going) failed⟩
      · rw [session]
        exact before.counts.receive M f.pager.request
      · rw [out_of_perm flights]
        simp only [idle, Bool.false_and, Bool.false_eq_true, if_false, Nat.add_zero] at hout
        simp [Tally.after, hout]
  | takes pager wait due calling received session flights waiting finished failure =>
      simp only [calling, Bool.true_and, if_true] at hout
      simp only [calling, received, if_true, List.foldl_cons, List.foldl_nil]
      refine ⟨?_, fun _ => ?_, fun failed => absurd (failure.trans going) failed⟩
      · rw [session]
        exact before.counts.reply (by omega) M f.pager.request _
      · rw [out_of_perm flights]
        simp [Tally.after, hout]
  | fails e calling received =>
      simp only [calling, Bool.true_and, if_true] at hout
      simp only [calling, received, if_true, List.foldl_cons, List.foldl_nil]
      have hreply := before.counts.reply (by omega) M f.pager.request
        ⟨f.pager.request, ((s.arrived f).reply Store.transport f.pager.request).2⟩
      exact ⟨hreply.giveUp, nofun, fun _ => rfl⟩
  | finishes models idle done built =>
      simp only [idle, done, built, Bool.false_eq_true, if_false, if_true, List.foldl_cons,
        List.foldl_nil]
      simp only [idle, Bool.false_and, Bool.false_eq_true, if_false, Nat.add_zero] at hout
      refine ⟨before.counts, fun _ => ?_, fun failed => absurd going failed⟩
      rw [out_launch]
      exact hout
  | breaks e idle done built =>
      simp only [idle, done, built, Bool.false_eq_true, if_false, if_true, List.foldl_cons,
        List.foldl_nil]
      exact ⟨before.counts.giveUp, nofun, fun _ => rfl⟩

/-- A call takes the room of a bucket in flight. -/
theorem most_of_goes (hnodup : (s.flights.map (·.index)).Nodup) (mem : f ∈ s.flights)
    (h : Goes plan Store.transport s f s') (going : s.failure = none) (before : Tallied y s)
    (hroom : s.flights.length ≤ plan.concurrency) :
    (y.afterAll (s.seen plan Store.transport f s')).most ≤ max y.most plan.concurrency := by
  have hsplit := flights_perm hnodup mem
  have hlength : s.flights.length = (s.others f).length + 1 := hsplit.length_eq
  have hout := before.going going
  rw [out_of_perm hsplit] at hout
  rw [afterAll_seen, doing]
  cases h with
  | sends due idle left session flights waiting finished failure =>
      have hothers := List.countP_le_length (p := fun g : Flight => g.calling && true)
        (l := s.others f)
      simp only [idle, Bool.false_and, Bool.false_eq_true, if_false, Nat.add_zero] at hout
      simp only [idle, left, Bool.false_eq_true, if_false, List.foldl_cons, List.foldl_nil,
        Tally.after]
      omega
  | takes pager wait due calling received session flights waiting finished failure =>
      simp only [calling, received, if_true, List.foldl_cons, List.foldl_nil, Tally.after]
      omega
  | fails e calling received =>
      simp only [calling, received, if_true, List.foldl_cons, List.foldl_nil, Tally.after,
        Tally.giveUp]
      omega
  | finishes models idle done built =>
      simp only [idle, done, built, Bool.false_eq_true, if_false, if_true, List.foldl_cons,
        List.foldl_nil, Tally.after]
      omega
  | breaks e idle done built =>
      simp only [idle, done, built, Bool.false_eq_true, if_false, if_true, List.foldl_cons,
        List.foldl_nil, Tally.after, Tally.giveUp]
      omega

section Start

variable {session : Session Store} {requests : List BatchRequest}

/-- **Over a fetch the store's count stays that of the tally.** -/
theorem Trace.tallied (h : Trace plan Store.transport (Fetch.start plan session requests) tr s)
    (hcounts : session.store.Counts y) (hnone : y.out = 0) : Tallied (y.afterAll tr) s := by
  induction h with
  | start =>
      rw [Tally.afterAll_starts]
      refine ⟨hcounts, fun _ => ?_, fun failed => absurd rfl failed⟩
      rw [hnone, Fetch.start, out_launch]
      rfl
  | go before going mem ih =>
      have hflights := nodup_flights (before.course.nodup_indices going)
      rw [Tally.afterAll_append]
      exact tallied_of_goes hflights mem (step_goes hflights mem) going ih

/-- A fetch that ends well loses no call. -/
theorem Trace.lost_eq (h : Trace plan Store.transport (Fetch.start plan session requests) tr s)
    (y : Tally) {models : List M} (ended : s.result? = some (.ok models)) :
    (y.afterAll tr).lost = y.lost := by
  obtain ⟨hgoing, -⟩ := result?_eq_ok_iff.mp ended
  refine y.lost_afterAll ?_
  rw [h.ended_eq hgoing]
  exact fun d hd => exists_of_mem_results hd

/-- There are never more calls out than the plan allows, or than there have been before. -/
theorem Trace.most_le (h : Trace plan Store.transport (Fetch.start plan session requests) tr s)
    (hcounts : session.store.Counts y) (hnone : y.out = 0) :
    (y.afterAll tr).most ≤ max y.most plan.concurrency := by
  induction h with
  | start =>
      rw [Tally.afterAll_starts]
      exact Nat.le_max_left ..
  | go before going mem ih =>
      have hflights := nodup_flights (before.course.nodup_indices going)
      have hstep := most_of_goes hflights mem (step_goes hflights mem) going
        (before.tallied hcounts hnone) (before.room going)
      rw [Tally.afterAll_append]
      omega

end Start

end Fetch

/-! ### Fetch after fetch -/

/-- A session after any number of fetches, one at a time, from a store that was new, and the calls
as they are seen from outside. -/
inductive Store.Served : Tally → Session Store → Prop
  | new {s : Session Store} (closed : s.store.inFlight = 0) (quiet : s.store.peak = 0) :
      Served {} s
  /-- Between fetches anything may change but the count.  If the last one was not followed to its
  end, its calls are given up. -/
  | between {y : Tally} {s s' : Session Store} (before : Served y s)
      (inFlight : s'.store.inFlight = s.store.inFlight) (peak : s'.store.peak = s.store.peak) :
      Served y.giveUp s'
  /-- A fetch, up to any moment, in any order of its steps. -/
  | fetch {M : Type} {y : Tally} {s : Session Store} {plan : FetchPlan M}
      {requests : List BatchRequest} {tr : List (Nat × Fetch.Event M)} {f : Fetch Store M}
      (before : Served y s)
      (trace : Fetch.Trace plan Store.transport (Fetch.start plan s requests) tr f) :
      Served (y.giveUp.afterAll tr) f.session

namespace Store.Served

variable {y : Tally} {s : Session Store}

theorem counts (h : Served y s) : s.store.Counts y := by
  induction h with
  | new closed quiet => exact ⟨closed, Nat.zero_le _, Nat.le_of_eq quiet⟩
  | between before inFlight peak ih =>
      exact ⟨inFlight.trans ih.giveUp.inFlight, peak ▸ ih.giveUp.least, peak ▸ ih.giveUp.most⟩
  | fetch before trace ih => exact (trace.tallied ih.giveUp rfl).counts

/-- What getting does to the tally. -/
theorem getWithin {M : Type} (h : Served y s) (g : Getter M) (fuel : Nat)
    (records : List KeyRecord) (options : ReadOptions) :
    ∃ y', Served y' (g.getWithin fuel Store.transport s records options).1 ∧
      ((g.getWithin fuel Store.transport s records options).2 ≠ none → y'.out = 0) ∧
      (∀ models, (g.getWithin fuel Store.transport s records options).2 = some (.ok models) →
        y'.lost = y.lost + y.out) ∧
      ∀ keys, g.buildKeys records = .ok keys →
        y'.most ≤ max y.most (g.planFor keys options).concurrency := by
  cases hkeys : g.buildKeys records with
  | error e =>
      have hget : g.getWithin fuel Store.transport s records options = (s, some (.error e)) := by
        rw [Getter.getWithin, hkeys]
      rw [hget]
      refine ⟨y.giveUp, h.between rfl rfl, fun _ => rfl, fun models hmodels => ?_,
        fun keys' hkeys' => ?_⟩
      · cases hmodels
      · cases hkeys'
  | ok keys =>
      obtain ⟨n, f, hreach, -, hget⟩ :=
        Getter.getWithin_reaches hkeys fuel Store.transport s options
      obtain ⟨tr, htrace⟩ := hreach.trace
      rw [hget]
      refine ⟨_, h.fetch htrace, fun hended => ?_, fun models hmodels => ?_, ?_⟩
      · exact (htrace.tallied h.counts.giveUp rfl).out_eq_zero hended
      · exact htrace.lost_eq _ hmodels
      · rintro _ ⟨⟩
        exact htrace.most_le h.counts.giveUp rfl

/--
**The store's gauge is right but for the calls that are lost.**

Let any fetches have been made of a store, one at a time, each up to any moment and in any order of
its steps.  The calls the store takes for open are those that are out and those that were out when
their fetch came to an end, and the most it has counted is the most that were out at once, or more,
but by no more than the calls that are lost.  Getting leaves no call out when it ends, and loses
none when it ends well.
-/
theorem gauge_within_lost (h : Served y s) :
    s.store.inFlight = y.out + y.lost ∧ y.most ≤ s.store.peak ∧ s.store.peak ≤ y.most + y.lost ∧
      ∀ (M : Type) (g : Getter M) (fuel : Nat) (records : List KeyRecord) (options : ReadOptions),
        ∃ y', Served y' (g.getWithin fuel Store.transport s records options).1 ∧
          ((g.getWithin fuel Store.transport s records options).2 ≠ none → y'.out = 0) ∧
          (∀ models, (g.getWithin fuel Store.transport s records options).2 = some (.ok models) →
            y'.lost = y.lost + y.out) ∧
          ∀ keys, g.buildKeys records = .ok keys →
            y'.most ≤ max y.most (g.planFor keys options).concurrency :=
  ⟨h.counts.inFlight, h.counts.least, h.counts.most, fun _ => h.getWithin⟩

/-- Two keys in buckets of one, of a store that takes its time: none of the calls is lost, and the
store's numbers are right. -/
theorem gauge_within_lost_two_calls :
    let g : Getter Item := {
      table := .plain "users" (Schema.ofHashKey "id" .string), config := { maxBatchSize := 1 } }
    let session : Session Store := { store := { latency := 5 } }
    let records : List KeyRecord := [{ hash := .text "a" }, { hash := .text "b" }]
    let after := (g.getWithin 9 Store.transport session records ∅).1
    Served {} session ∧ ∃ y, Served y after ∧ y.out = 0 ∧ y.lost = 0 ∧ y.most = 2 ∧
      after.store.inFlight = 0 ∧ after.store.peak = 2 := by
  intro g session records after
  have hnew : Served {} session := .new rfl rfl
  obtain ⟨result, hresult, hok⟩ := Option.map_eq_some_iff.mp
    (show (g.getWithin 9 Store.transport session records ∅).2.map Except.isOk = some true by
      decide +kernel)
  have hpeak : after.store.peak = 2 := by decide +kernel
  obtain ⟨-, -, -, hgets⟩ := hnew.gauge_within_lost
  obtain ⟨y, hserved, hout, hlost, -⟩ := hgets Item g 9 records ∅
  have hnone : y.out = 0 := hout (by rw [hresult]; exact Option.some_ne_none _)
  have hkept : y.lost = 0 := by
    cases result with
    | ok models => exact hlost models hresult
    | error e => cases hok
  obtain ⟨hflight, hleast, hmost, -⟩ := hserved.gauge_within_lost
  have hpeak' : (g.getWithin 9 Store.transport session records ∅).1.store.peak = 2 := hpeak
  refine ⟨hnew, y, hserved, hnone, hkept, by omega, ?_, hpeak⟩
  rw [hnone, hkept] at hflight
  exact hflight

/-- The same store is told to fail once in a way that ends the fetch.  When it has, the call of the
other bucket is open for the store though no fetch is running; and when both keys are fetched again,
two calls at a time, it counts three. -/
theorem gauge_after_lost_call :
    let g : Getter Item := {
      table := .plain "users" (Schema.ofHashKey "id" .string), config := { maxBatchSize := 1 } }
    let denied : Error := .transport "access denied" false
    let session : Session Store := { store := { latency := 5, failures := [denied] } }
    let records : List KeyRecord := [{ hash := .text "a" }, { hash := .text "b" }]
    let first := g.getWithin 9 Store.transport session records ∅
    let second := g.getWithin 9 Store.transport first.1 records ∅
    first.2 = some (.error denied) ∧ second.2.map Except.isOk = some true ∧
      ∃ y₁ y₂, Served y₁ first.1 ∧ y₁.out = 0 ∧ first.1.store.inFlight = 1 ∧
        Served y₂ second.1 ∧ y₂.out = 0 ∧ y₂.most = 2 ∧ second.1.store.inFlight = 1 ∧
        second.1.store.peak = 3 := by
  intro g denied session records first second
  have hfirst : first.2 = some (.error denied) := by decide +kernel
  have hsecond : second.2.map Except.isOk = some true := by decide +kernel
  have hflight₁ : first.1.store.inFlight = 1 := by decide +kernel
  have hflight₂ : second.1.store.inFlight = 1 := by decide +kernel
  have hpeak : second.1.store.peak = 3 := by decide +kernel
  obtain ⟨keys, hkeys, hroom⟩ :
      ∃ keys, g.buildKeys records = .ok keys ∧ (g.planFor keys ∅).concurrency = 2 :=
    ⟨_, rfl, by decide +kernel⟩
  have hnew : Served {} session := .new rfl rfl
  obtain ⟨y₁, hserved₁, hout₁, -, hmost₁⟩ := hnew.getWithin g 9 records ∅
  obtain ⟨y₂, hserved₂, hout₂, -, hmost₂⟩ := hserved₁.getWithin g 9 records ∅
  have hended₁ : first.2 ≠ none := by
    rw [hfirst]
    exact Option.some_ne_none _
  have hended₂ : second.2 ≠ none := by
    intro hnone
    rw [hnone] at hsecond
    cases hsecond
  -- The count at the end is of lost calls alone, which leaves two for those that were out at once.
  have hlost : second.1.store.inFlight = y₂.out + y₂.lost := hserved₂.counts.inFlight
  have hbound : second.1.store.peak ≤ y₂.most + y₂.lost := hserved₂.counts.most
  have hleast : y₁.most ≤ 2 := hroom ▸ hmost₁ keys hkeys
  have hmost : y₂.most ≤ max y₁.most 2 := hroom ▸ hmost₂ keys hkeys
  have hnone := hout₂ hended₂
  exact ⟨hfirst, hsecond, y₁, y₂, hserved₁, hout₁ hended₁, hflight₁, hserved₂, hnone, by omega,
    hflight₂, hpeak⟩

end Store.Served

end ItemStore
