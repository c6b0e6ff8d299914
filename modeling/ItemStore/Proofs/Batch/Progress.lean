/-
When a request comes to an end.

A successful reply ends a round, and the next round asks for what it leaves.  A reply that
leaves more keys than were asked for ends the matter, so from round to round the number of keys
asked for falls or stays as it is.  The rounds gone through, those that left it as it was
aside, and the keys still asked for together never exceed the keys at the start
(`Follows.progress`).

So a request whose calls are all answered comes to an end if the rounds that bring nothing are
bounded in number, and after no more rounds than that number and the number of its keys.  The
bound is needed: a round that leaves as many keys as it asked for is no fault, and a store that
does so for ever is asked for ever (`run_unending_without_room`).
-/
import ItemStore.Proofs.Batch.Failure
import ItemStore.Proofs.StoreFetch

namespace ItemStore

namespace Exchange

/-- The reply ends a round. -/
def isRound (x : Exchange) : Bool :=
  x.reply.isOk

/-- The reply ends a round and leaves as many keys as the round asked for. -/
def stalls (x : Exchange) : Bool :=
  match x.reply with
  | .ok response => (response.next?.getD ∅).keyCount = x.request.keyCount
  | .error _ => false

end Exchange

namespace Pager

variable {σ : Type} {t : Transport σ} {policy : RetryPolicy} {table : String}
  {s₀ s : Session σ} {p₀ p : Pager} {log : List Exchange}

/-! ### Rounds and keys -/

/-- A call that does not end the matter takes a key away for its round, unless it stalls. -/
theorem progress_of_receive {p' : Pager} {reply : Except Error BatchResponse} {wait : Nat}
    (h : p.receive policy table reply = .ok (p', wait)) :
    (if Exchange.isRound ⟨p.request, reply⟩ then 1 else 0) + p'.request.keyCount ≤
      p.request.keyCount + if Exchange.stalls ⟨p.request, reply⟩ then 1 else 0 := by
  rcases receive_cases h with ⟨response, rfl, hle, -, rfl⟩ | ⟨e, rfl, -, rfl⟩
  · by_cases hstalls : (response.next?.getD ∅).keyCount = p.request.keyCount
    · simp [Exchange.isRound, Exchange.stalls, Except.isOk, Except.toBool, hstalls, Nat.add_comm]
    · simp only [Exchange.isRound, Exchange.stalls, Except.isOk, Except.toBool, hstalls]
      simp
      omega
  · simp [Exchange.isRound, Exchange.stalls, Except.isOk, Except.toBool]

/-- **The rounds so far, those that stalled aside, and the keys still asked for are no more than
the keys at the start**, whatever failures came in between. -/
theorem Follows.progress (h : Follows t policy table s₀ p₀ log s p) :
    log.countP Exchange.isRound + p.request.keyCount ≤
      p₀.request.keyCount + log.countP Exchange.stalls := by
  induction h with
  | start => simp
  | call before going called received ih =>
      have hcall := progress_of_receive received
      rw [List.countP_append, List.countP_append, List.countP_singleton, List.countP_singleton]
      omega

/-! ### Calls that are all answered -/

/-- Wherever the request passes, its next call is answered. -/
def Answered (t : Transport σ) (policy : RetryPolicy) (table : String) (s₀ : Session σ)
    (p₀ : Pager) : Prop :=
  ∀ log s p, Follows t policy table s₀ p₀ log s p → p.isDone = false →
    ∃ response, (s.call t p.request).2 = .ok response

/-- Then every call is a round. -/
theorem Answered.all_rounds (answered : Answered t policy table s₀ p₀)
    (h : Follows t policy table s₀ p₀ log s p) :
    log.countP Exchange.isRound = log.length := by
  induction h with
  | start => rfl
  | @call log s s' p p' reply wait before going called received ih =>
      obtain ⟨response, hresponse⟩ := answered _ _ _ before going
      have hreply : reply = .ok response := by rw [← hresponse, called]
      rw [List.countP_append, List.countP_singleton, ih, List.length_append, hreply]
      rfl

theorem length_calls_of_call {s s' : Session σ} {request : BatchRequest}
    {reply : Except Error BatchResponse} (called : s.call t request = (s', reply)) :
    s'.calls.length = s.calls.length + 1 := by
  obtain ⟨time, hcalls⟩ := calls_of_call called
  rw [hcalls, List.length_append, List.length_singleton]

/-- A run has made one call for each exchange on its way. -/
theorem Follows.length_calls (h : Follows t policy table s₀ p₀ log s p) :
    s.calls.length = s₀.calls.length + log.length := by
  induction h with
  | start => rfl
  | @call log s s' p p' reply wait before going called received ih =>
      rw [List.length_append, List.length_singleton, ← Nat.add_assoc, ← ih]
      show s'.calls.length = s.calls.length + 1
      exact length_calls_of_call called

/-- A run that has ended went no further than its fuel. -/
theorem Follows.length_le (h : Follows t policy table s₀ p₀ log s p) {fuel : Nat}
    {result : Except Error (List NativeItem)}
    (ended : (run t policy table fuel s₀ p₀).2 = some result) : log.length ≤ fuel := by
  induction h with
  | start => exact Nat.zero_le _
  | @call log s s' p p' reply wait before going called received ih =>
      rw [List.length_append, List.length_singleton]
      refine Nat.lt_of_le_of_ne ih fun hfuel => ?_
      -- With just this fuel the run stops where a call is still to be made.
      have hrun := before.run_eq 0
      rw [Nat.add_zero, hfuel, run, if_neg (by simp [going])] at hrun
      rw [hrun] at ended
      cases ended

/-- The ways in which a request ends whose calls are all answered: with items, or because a reply
left more keys than its round asked for. -/
def Settled (result : Except Error (List NativeItem)) : Prop :=
  ∀ e, result = .error e → ∃ remaining outstanding,
    outstanding < remaining ∧ e = .grown remaining outstanding

theorem settled_ok (items : List NativeItem) : Settled (.ok items) := by
  intro e he
  cases he

/-- The run ends within its fuel, and more fuel changes nothing. -/
def EndsWithin (t : Transport σ) (policy : RetryPolicy) (table : String) (s₀ : Session σ)
    (p₀ : Pager) (fuel : Nat) : Prop :=
  ∃ s result, (∀ more, run t policy table (fuel + more) s₀ p₀ = (s, some result)) ∧
    s.calls.length ≤ s₀.calls.length + fuel ∧ Settled result

theorem EndsWithin.succ {fuel : Nat} (h : EndsWithin t policy table s₀ p₀ fuel) :
    EndsWithin t policy table s₀ p₀ (fuel + 1) := by
  obtain ⟨s, result, hrun, hcalls, hsettled⟩ := h
  refine ⟨s, result, fun more => ?_, Nat.le_succ_of_le hcalls, hsettled⟩
  rw [Nat.add_assoc]
  exact hrun (1 + more)

/-- One call more is the last one, or something is still to be asked for after it. -/
theorem Answered.call (answered : Answered t policy table s₀ p₀)
    (h : Follows t policy table s₀ p₀ log s p) (going : p.isDone = false) :
    EndsWithin t policy table s₀ p₀ (log.length + 1) ∨
      ∃ log' s' p', Follows t policy table s₀ p₀ log' s' p' ∧ log'.length = log.length + 1 ∧
        p'.isDone = false := by
  obtain ⟨response, hresponse⟩ := answered _ _ _ h going
  obtain ⟨s₁, hcalled⟩ : ∃ s₁, s.call t p.request = (s₁, .ok response) :=
    ⟨_, Prod.ext rfl hresponse⟩
  have hsent : s₁.calls.length = s₀.calls.length + (log.length + 1) := by
    rw [length_calls_of_call hcalled, h.length_calls, Nat.add_assoc]
  cases hreceived : p.receive policy table (.ok response) with
  | error e =>
      refine Or.inl ⟨s₁, .error e, fun more => ?_, Nat.le_of_eq hsent, ?_⟩
      · rw [Nat.add_assoc, h.run_eq, Nat.add_comm 1 more, run, if_neg (by simp [going])]
        simp only [hcalled, hreceived]
      · rintro e' ⟨⟩
        rcases receive_eq_error.mp hreceived with ⟨e', hfailed, -⟩ |
          ⟨response', next, -, -, hmore, hgrown⟩
        · cases hfailed
        · exact ⟨_, _, hmore, hgrown.symm⟩
  | ok next =>
      obtain ⟨p', wait⟩ := next
      have h' := h.call going hcalled hreceived
      have hlength : (log ++ [Exchange.mk p.request (.ok response)]).length = log.length + 1 := by
        rw [List.length_append, List.length_singleton]
      by_cases hdone : p'.isDone = true
      · refine Or.inl ⟨s₁.wait wait, .ok p'.items, fun more => ?_, Nat.le_of_eq hsent,
          settled_ok _⟩
        rw [← hlength, h'.run_eq, run_of_isDone _ hdone]
      · exact Or.inr ⟨_, _, _, h', hlength, by simpa using hdone⟩

/-- A run ends within its fuel, or it makes as many calls as it has fuel for and something is still
to be asked for. -/
theorem Answered.ends_or_goes_on (answered : Answered t policy table s₀ p₀) (fuel : Nat) :
    EndsWithin t policy table s₀ p₀ fuel ∨
      ∃ log s p, Follows t policy table s₀ p₀ log s p ∧ log.length = fuel ∧
        p.isDone = false := by
  induction fuel with
  | zero =>
      by_cases hdone : p₀.isDone = true
      · exact Or.inl ⟨s₀, .ok p₀.items, fun more => run_of_isDone _ hdone, Nat.le_refl _,
          settled_ok _⟩
      · exact Or.inr ⟨[], s₀, p₀, .start, rfl, by simpa using hdone⟩
  | succ fuel ih =>
      rcases ih with hends | ⟨log, s, p, h, rfl, hgoing⟩
      · exact Or.inl hends.succ
      · exact answered.call h hgoing

/-! ### Calls to the store in memory -/

section Store

variable {s₀ s : Session Store}

theorem reply_of_no_failures (store : Store) (fine : store.failures = [])
    (request : BatchRequest) : store.reply request =
      ({ store with inFlight := store.inFlight - 1 }, .ok (store.answer request)) := by
  rw [Store.reply, fine]

/-- A store with no failure to come answers, and has none to come afterwards. -/
theorem call_of_no_failures (fine : s.store.failures = []) (request : BatchRequest) :
    ∃ s', s.call Store.transport request =
        (s', .ok ((s.store.receive request).answer request)) ∧
      s'.store.failures = [] ∧ s'.store.pageLimit = s.store.pageLimit := by
  have hreply := reply_of_no_failures (s.store.receive request) fine request
  simp only [Session.call, Session.send, Session.reply, Session.wait, Store.transport, hreply]
  exact ⟨_, rfl, fine, rfl⟩

theorem answered_of_no_failures (policy : RetryPolicy) (table : String) (p₀ : Pager)
    (fine : s₀.store.failures = []) : Answered Store.transport policy table s₀ p₀ := by
  have hfine : ∀ {log s p}, Follows Store.transport policy table s₀ p₀ log s p →
      s.store.failures = [] := by
    intro log s p h
    induction h with
    | start => exact fine
    | @call log s s' p p' reply wait before going called received ih =>
        obtain ⟨s₁, hcalled, hfine, -⟩ := call_of_no_failures ih p.request
        cases called.symm.trans hcalled
        exact hfine
  intro log s p h going
  obtain ⟨s', hcalled, -⟩ := call_of_no_failures (hfine h) p.request
  exact ⟨_, congrArg Prod.snd hcalled⟩

/-- A store that looks up no key goes through any number of rounds, and the next one asks for the
same keys. -/
theorem follows_without_room (policy : RetryPolicy) (table : String) {keys : List NativeKey}
    (hkeys : keys ≠ []) (options : ReadOptions) (fine : s₀.store.failures = [])
    (hroom : s₀.store.pageLimit = some 0) (rounds : Nat) :
    ∃ log s p, Follows Store.transport policy table s₀ { request := .ofTable table keys options }
        log s p ∧ log.length = rounds ∧ s.store.failures = [] ∧ s.store.pageLimit = some 0 ∧
      p.request = .pending table options keys := by
  induction rounds with
  | zero =>
      exact ⟨[], s₀, _, .start, rfl, fine, hroom, BatchRequest.ofTable_eq_pending _ _ hkeys⟩
  | succ rounds ih =>
      obtain ⟨log, s, p, h, hlength, hs, hlimit, hrequest⟩ := ih
      obtain ⟨s', hcalled, hs', hlimit'⟩ := call_of_no_failures hs p.request
      have hpage : (s.store.receive p.request).pageSize keys.length = 0 := by
        have hroom' : (s.store.receive p.request).pageLimit = some 0 := hlimit
        rw [Store.pageSize_eq_min hroom', Nat.min_zero]
      have hreceived := receive_answer policy table options (s.store.receive p.request) p hkeys
        hrequest
      rw [hpage, List.drop_zero] at hreceived
      have hgoing : p.isDone = false := by
        rw [isDone, hrequest, ← Bool.not_eq_true, BatchRequest.isEmpty_pending_iff]
        exact hkeys
      exact ⟨_, _, _, h.call hgoing hcalled hreceived, by simp [hlength], hs',
        hlimit'.trans hlimit, rfl⟩

/-- **A store that looks up no key is asked for ever.** -/
theorem run_unending_without_room (policy : RetryPolicy) (table : String) {keys : List NativeKey}
    (hkeys : keys ≠ []) (options : ReadOptions) (fine : s₀.store.failures = [])
    (hroom : s₀.store.pageLimit = some 0) (fuel : Nat) :
    ∃ s, run Store.transport policy table fuel s₀ { request := .ofTable table keys options } =
        (s, none) ∧ s.calls.length = s₀.calls.length + fuel := by
  obtain ⟨log, s, p, h, rfl, -, -, hrequest⟩ :=
    follows_without_room policy table hkeys options fine hroom fuel
  refine ⟨s, ?_, h.length_calls⟩
  have hrun := h.run_eq 0
  rw [Nat.add_zero] at hrun
  rw [hrun, run, if_neg]
  rw [isDone, hrequest, BatchRequest.isEmpty_pending_iff]
  exact hkeys

end Store

/-! ### The end of a request -/

/--
**A request whose calls are all answered ends just if only so many of its rounds stall.**

At every point of its way the rounds so far and the keys still asked for are no more than the
keys at the start and the rounds that left as many keys as they asked for.  If the number of
these is bounded, the request ends, with items or because a reply left more keys than its round
asked for, after no more calls than that bound and its keys; and where it ends, there is a bound.
-/
theorem ends_iff_stalls_bounded (t : Transport σ) (policy : RetryPolicy) (table : String)
    (s₀ : Session σ) (request : BatchRequest)
    (answered : Answered t policy table s₀ { request }) :
    (∀ log s p, Follows t policy table s₀ { request } log s p →
      log.length + p.request.keyCount ≤ request.keyCount + log.countP Exchange.stalls) ∧
    (∀ bound, (∀ log s p, Follows t policy table s₀ { request } log s p →
        log.countP Exchange.stalls ≤ bound) →
      ∃ s result,
        (∀ more, run t policy table (request.keyCount + bound + more) s₀ { request } =
          (s, some result)) ∧
        s.calls.length ≤ s₀.calls.length + (request.keyCount + bound) ∧ Settled result) ∧
    ∀ fuel result, (run t policy table fuel s₀ { request }).2 = some result →
      ∃ bound, ∀ log s p, Follows t policy table s₀ { request } log s p →
        log.countP Exchange.stalls ≤ bound := by
  have hprogress : ∀ log s p, Follows t policy table s₀ { request } log s p →
      log.length + p.request.keyCount ≤ request.keyCount + log.countP Exchange.stalls := by
    intro log s p h
    have hrounds := h.progress
    rwa [answered.all_rounds h] at hrounds
  refine ⟨hprogress, fun bound hbound => ?_, fun fuel result ended => ⟨fuel, fun log s p h => ?_⟩⟩
  · rcases answered.ends_or_goes_on (request.keyCount + bound) with hends |
      ⟨log, s, p, h, hlength, hgoing⟩
    · exact hends
    · -- With all these rounds behind it nothing could be left to ask for.
      have hnone : p.request.keyCount = 0 := by
        have hrounds := hprogress log s p h
        have hstalls := hbound log s p h
        omega
      simp [isDone, BatchRequest.isEmpty, hnone] at hgoing
  · exact (List.countP_le_length).trans (h.length_le ended)

/-- Two keys against a store that looks up one in a call. -/
theorem ends_iff_stalls_bounded_two_pages :
    let key (id : String) : NativeKey := Entries.insert ∅ "id" (.leaf (.text id))
    let request : BatchRequest := .ofTable "users" [key "a", key "b"] ∅
    let s₀ : Session Store := { store := { pageLimit := some 1 } }
    Answered Store.transport .immediate "users" s₀ { request } ∧
      (∀ log s p, Follows Store.transport .immediate "users" s₀ { request } log s p →
        log.length + p.request.keyCount ≤ 2 + log.countP Exchange.stalls) ∧
      ∃ bound s result, (∀ more, run Store.transport .immediate "users" (2 + bound + more) s₀
          { request } = (s, some result)) ∧
        s.calls.length ≤ 0 + (2 + bound) ∧ Settled result := by
  intro key request s₀
  have answered : Answered Store.transport .immediate "users" s₀ { request } :=
    answered_of_no_failures .immediate "users" _ rfl
  obtain ⟨hprogress, hends, hbounded⟩ :=
    ends_iff_stalls_bounded Store.transport .immediate "users" s₀ request answered
  have hrun : (run Store.transport .immediate "users" 2 s₀ { request }).2 = some (.ok []) := by
    decide +kernel
  obtain ⟨bound, hbound⟩ := hbounded 2 _ hrun
  have hcount : request.keyCount = 2 := rfl
  rw [hcount] at hprogress hends
  exact ⟨answered, hprogress, bound, hends bound hbound⟩

/-- One key against a store that looks up none: every call is answered, and however many there
are, the request has not come to an end. -/
theorem unending_one_key :
    let key : NativeKey := Entries.insert ∅ "id" (.leaf (.text "a"))
    let request : BatchRequest := .ofTable "users" [key] ∅
    let s₀ : Session Store := { store := { pageLimit := some 0 } }
    Answered Store.transport .immediate "users" s₀ { request } ∧ request.keyCount = 1 ∧
      ∀ fuel, ∃ s, run Store.transport .immediate "users" fuel s₀ { request } = (s, none) ∧
        s.calls.length = fuel := by
  intro key request s₀
  refine ⟨answered_of_no_failures .immediate "users" _ rfl, rfl, fun fuel => ?_⟩
  have fine : s₀.store.failures = [] := rfl
  obtain ⟨s, hrun, hcalls⟩ := run_unending_without_room .immediate "users"
    (List.cons_ne_nil key []) ∅ fine rfl fuel
  exact ⟨s, hrun, hcalls.trans (Nat.zero_add fuel)⟩

end Pager

end ItemStore
