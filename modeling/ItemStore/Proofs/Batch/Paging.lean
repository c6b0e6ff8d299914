/-
A request goes round by round.

`Pager.run` is one loop over calls.  Seen from the store there are two, one inside the other: a
round sends its request until a reply is no failure worth another try (`Repeats`), and the
request of the next round is what that reply leaves (`Passes`).  `Ends` says how the last round
ends: with nothing left to ask for, with a failure that is not repeated, or with a reply that
leaves more keys than were asked for.

Wherever a run passes it has some rounds behind it and is so many failures into the next, with
the retries of this round for its count (`Follows.passes`); and any rounds that the store's replies
make up are the way of a run (`Passes.follows`).  So a run ends as its rounds do, and goes on as
long as they do (`run_rounds`).
-/
import Mathlib.Data.List.Chain
import ItemStore.Proofs.Batch.Rounds
import ItemStore.Proofs.Retry

namespace ItemStore

/-- A round: what was asked for, the failures after which it was asked for again, and the reply
that ended it. -/
structure Round where
  request : BatchRequest
  failures : List Error
  reply : Except Error BatchResponse

namespace Round

/-- The requests that were sent: one, and one more after each failure. -/
def requests (r : Round) : List BatchRequest :=
  List.replicate (r.failures.length + 1) r.request

/-- The items of a table that the round brought. -/
def items (table : String) (r : Round) : List NativeItem :=
  match r.reply with
  | .ok response => response.itemsFor table
  | .error _ => []

/-- The keys that the reply names as not looked up are the request of the next round. -/
def LeadsTo (r next : Round) : Prop :=
  ∃ response, r.reply = .ok response ∧ response.unprocessed = some next.request.tables

/-- The requests that were sent in rounds, one round after another. -/
def sent (rounds : List Round) : List BatchRequest :=
  rounds.flatMap requests

@[simp] theorem length_requests (r : Round) : r.requests.length = r.failures.length + 1 :=
  List.length_replicate

@[simp] theorem sent_nil : sent [] = [] := rfl

@[simp] theorem sent_append (rounds : List Round) (r : Round) :
    sent (rounds ++ [r]) = sent rounds ++ r.requests := by
  rw [sent, List.flatMap_append, List.flatMap_singleton, sent]

end Round

theorem BatchResponse.unprocessed_of_next? {response : BatchResponse} {next : BatchRequest}
    (h : response.next? = some next) : response.unprocessed = some next.tables := by
  rw [next?, Option.filter_eq_some_iff, Option.map_eq_some_iff] at h
  obtain ⟨⟨tables, htables, rfl⟩, -⟩ := h
  exact htables

namespace Pager

variable {σ : Type} {t : Transport σ} {policy : RetryPolicy} {table : String} {s₀ s s₁ : Session σ}
  {p₀ p : Pager} {log : List Exchange} {request current : BatchRequest} {failures : List Error}
  {rounds : List Round}

/-! ### Rounds -/

/-- A request is sent again after each of these failures, with the waits and up to the limit that
the policy sets. -/
inductive Repeats (t : Transport σ) (policy : RetryPolicy) (request : BatchRequest)
    (s₀ : Session σ) : List Error → Session σ → Prop
  | start : Repeats t policy request s₀ [] s₀
  | again {failures : List Error} {e : Error} {s s' : Session σ}
      (before : Repeats t policy request s₀ failures s)
      (failed : s.call t request = (s', .error e)) (retryable : e.isRetryable = true)
      (within : ∀ limit, policy.maxRetries = some limit → failures.length < limit.toNat) :
      Repeats t policy request s₀ (failures ++ [e])
        (s'.wait (policy.backoff (.ofNat failures.length)).toNat)

/-- A request goes through these rounds, and then this is asked for. -/
inductive Passes (t : Transport σ) (policy : RetryPolicy) (s₀ : Session σ)
    (request : BatchRequest) : List Round → Session σ → BatchRequest → Prop
  | start : Passes t policy s₀ request [] s₀ request
  | round {rounds : List Round} {current : BatchRequest} {failures : List Error}
      {response : BatchResponse} {s s₁ s₂ : Session σ}
      (before : Passes t policy s₀ request rounds s current) (asking : current.isEmpty = false)
      (repeated : Repeats t policy current s failures s₁)
      (replied : s₁.call t current = (s₂, .ok response))
      (fits : (response.next?.getD ∅).keyCount ≤ current.keyCount) :
      Passes t policy s₀ request (rounds ++ [⟨current, failures, .ok response⟩]) s₂
        (response.next?.getD ∅)

/-- A request goes through these rounds to its end. -/
inductive Ends (t : Transport σ) (policy : RetryPolicy) (table : String) (s₀ : Session σ)
    (request : BatchRequest) :
    List Round → Session σ → Except Error (List NativeItem) → Prop
  /-- Nothing is left to ask for. -/
  | done {rounds : List Round} {s : Session σ} {current : BatchRequest}
      (passed : Passes t policy s₀ request rounds s current) (nothing : current.isEmpty = true) :
      Ends t policy table s₀ request rounds s (.ok (rounds.flatMap (Round.items table)))
  /-- A failure that is not worth another try. -/
  | refused {rounds : List Round} {s s₁ s₂ : Session σ} {current : BatchRequest}
      {failures : List Error} {e : Error}
      (passed : Passes t policy s₀ request rounds s current) (asking : current.isEmpty = false)
      (repeated : Repeats t policy current s failures s₁)
      (failed : s₁.call t current = (s₂, .error e)) (fatal : e.isRetryable = false) :
      Ends t policy table s₀ request (rounds ++ [⟨current, failures, .error e⟩]) s₂ (.error e)
  /-- A failure when the round has been through as many as the policy allows. -/
  | exhausted {rounds : List Round} {s s₁ s₂ : Session σ} {current : BatchRequest}
      {failures : List Error} {e : Error} {limit attempts : UInt32}
      (passed : Passes t policy s₀ request rounds s current) (asking : current.isEmpty = false)
      (repeated : Repeats t policy current s failures s₁)
      (failed : s₁.call t current = (s₂, .error e)) (retryable : e.isRetryable = true)
      (limited : policy.maxRetries = some limit) (spent : failures.length = limit.toNat)
      (count : attempts.toNat = failures.length + 1) :
      Ends t policy table s₀ request (rounds ++ [⟨current, failures, .error e⟩]) s₂
        (.error (.exhausted attempts e))
  /-- A reply that leaves more keys than were asked for. -/
  | grown {rounds : List Round} {s s₁ s₂ : Session σ} {current next : BatchRequest}
      {failures : List Error} {response : BatchResponse}
      (passed : Passes t policy s₀ request rounds s current) (asking : current.isEmpty = false)
      (repeated : Repeats t policy current s failures s₁)
      (replied : s₁.call t current = (s₂, .ok response))
      (left : response.next? = some next) (more : current.keyCount < next.keyCount) :
      Ends t policy table s₀ request (rounds ++ [⟨current, failures, .ok response⟩]) s₂
        (.error (.grown next.keyCount current.keyCount))

/-! ### Rounds are the way of a run -/

theorem Repeats.length_le (h : Repeats t policy request s₀ failures s) :
    ∀ limit, policy.maxRetries = some limit → failures.length ≤ limit.toNat := by
  intro limit hlimit
  cases h with
  | start => exact Nat.zero_le _
  | again before failed retryable within =>
      rw [List.length_append, List.length_singleton]
      exact within limit hlimit

theorem Repeats.eq_of_nil (h : Repeats t policy request s₀ [] s) : s = s₀ := by
  generalize hfailures : ([] : List Error) = failures at h
  cases h with
  | start => rfl
  | again => simp at hfailures

theorem Repeats.follows {items : List NativeItem} (h : Repeats t policy request s failures s₁)
    (asking : request.isEmpty = false)
    (before : Follows t policy table s₀ p₀ log s { request, items }) :
    ∃ log', Follows t policy table s₀ p₀ log' s₁
        { request, retries := .ofNat failures.length, items } ∧
      log'.length = log.length + failures.length := by
  induction h with
  | start => exact ⟨log, before, rfl⟩
  | @again failures e s s' repeated failed retryable within ih =>
      obtain ⟨log', hfollows, hlength⟩ := ih
      have hallows := (RetryPolicy.allows_ofNat repeated.length_le).mpr within
      have hafter := RetryPolicy.afterFailure_eq_ok.mpr ⟨retryable, hallows, rfl⟩
      have hcall := hfollows.call asking failed (receive_of_failure hafter)
      rw [List.length_append, List.length_singleton, UInt32.ofNat_add]
      refine ⟨_, hcall, ?_⟩
      rw [List.length_append, List.length_singleton, hlength, Nat.add_assoc]

theorem Passes.follows (table : String) (h : Passes t policy s₀ request rounds s current) :
    ∃ log, Follows t policy table s₀ { request } log s
        { request := current, items := rounds.flatMap (Round.items table) } ∧
      log.length = (Round.sent rounds).length := by
  induction h with
  | start => exact ⟨[], .start, rfl⟩
  | @round rounds current failures response s s₁ s₂ before asking repeated replied fits ih =>
      obtain ⟨log, hfollows, hlength⟩ := ih
      obtain ⟨log', hfollows', hlength'⟩ := repeated.follows asking hfollows
      have hcall := hfollows'.call asking replied (receive_of_fits fits)
      rw [List.flatMap_append, List.flatMap_singleton]
      refine ⟨_, hcall, ?_⟩
      simp [hlength, hlength', Nat.add_assoc]

/-! ### A run is on its way through rounds -/

/-- Where a run is: the rounds behind it, and the failures of the one it is in. -/
theorem Follows.passes (h : Follows t policy table s₀ { request } log s p)
    (few : log.length < 2 ^ 32) :
    ∃ rounds s₁ failures, Passes t policy s₀ request rounds s₁ p.request ∧
      Repeats t policy p.request s₁ failures s ∧
      p.retries = .ofNat failures.length ∧ p.items = rounds.flatMap (Round.items table) ∧
      (p.request.isEmpty = true → failures = []) ∧
      log.length = (Round.sent rounds).length + failures.length := by
  induction h with
  | start => exact ⟨[], s₀, [], .start, .start, rfl, rfl, fun _ => rfl, rfl⟩
  | @call log s s' p p' reply wait before going called received ih =>
      rw [List.length_append, List.length_singleton] at few
      obtain ⟨rounds, s₁, failures, hpasses, hrepeats, hretries, hitems, -, hlength⟩ :=
        ih (by omega)
      rcases receive_cases received with ⟨response, rfl, fits, rfl, rfl⟩ | ⟨e, rfl, hafter, rfl⟩
      · have hround := hpasses.round going hrepeats called fits
        refine ⟨_, _, [], hround, .start, rfl, ?_, fun _ => rfl, ?_⟩
        · simp [hitems, Round.items]
        · simp [hlength, Nat.add_assoc]
      · rw [hretries] at hafter
        obtain ⟨hretryable, hallows, rfl⟩ := RetryPolicy.afterFailure_eq_ok.mp hafter
        have hwithin := (RetryPolicy.allows_ofNat hrepeats.length_le).mp hallows
        have hagain := hrepeats.again called hretryable hwithin
        refine ⟨_, _, _, hpasses, hagain, ?_, hitems, fun hnone => ?_, ?_⟩
        · simp [hretries, UInt32.ofNat_add]
        · exact absurd (hnone.symm.trans going) (by decide)
        · simp [hlength, Nat.add_assoc]

/-! ### The end of a run -/

/-- A call that ends the matter ends the last round. -/
theorem Passes.ends {reply : Except Error BatchResponse} {e : Error} {s₂ : Session σ}
    (passed : Passes t policy s₀ request rounds s₁ p.request) (asking : p.isDone = false)
    (repeated : Repeats t policy p.request s₁ failures s)
    (called : s.call t p.request = (s₂, reply))
    (count : p.retries = .ofNat failures.length) (few : failures.length + 1 < 2 ^ 32)
    (received : p.receive policy table reply = .error e) :
    Ends t policy table s₀ request (rounds ++ [⟨p.request, failures, reply⟩]) s₂ (.error e) := by
  rcases receive_eq_error.mp received with ⟨e', rfl, hafter⟩ |
    ⟨response, next, rfl, left, more, rfl⟩
  · rw [count] at hafter
    rcases RetryPolicy.afterFailure_eq_error.mp hafter with ⟨fatal, rfl⟩ |
      ⟨retryable, hspent, rfl⟩
    · exact .refused passed asking repeated called fatal
    · -- The policy has a limit, and the round has come to it.
      have hnot : ¬ ∀ limit, policy.maxRetries = some limit → failures.length < limit.toNat := by
        rw [← RetryPolicy.allows_ofNat repeated.length_le, hspent]
        exact Bool.false_ne_true
      obtain ⟨limit, hrest⟩ := not_forall.mp hnot
      obtain ⟨limited, hreached⟩ := Classical.not_imp.mp hrest
      have hspent := Nat.le_antisymm (repeated.length_le limit limited) (Nat.le_of_not_lt hreached)
      refine .exhausted passed asking repeated called retryable limited hspent ?_
      rw [UInt32.toNat_add, UInt32.toNat_ofNat', UInt32.toNat_one, Nat.mod_add_mod,
        Nat.mod_eq_of_lt few]
  · exact .grown passed asking repeated called left more

/-- A run comes to the call that ends its last round, and ends there. -/
theorem Passes.run_eq {reply : Except Error BatchResponse} {e : Error} {s₂ : Session σ}
    (passed : Passes t policy s₀ request rounds s current) (asking : current.isEmpty = false)
    (repeated : Repeats t policy current s failures s₁)
    (called : s₁.call t current = (s₂, reply))
    (received : ∀ items, receive policy table
      { request := current, retries := .ofNat failures.length, items } reply = .error e)
    {fuel : Nat}
    (enough : (Round.sent (rounds ++ [⟨current, failures, reply⟩])).length ≤ fuel) :
    run t policy table fuel s₀ { request } = (s₂, some (.error e)) := by
  obtain ⟨log, hfollows, hlength⟩ := passed.follows table
  obtain ⟨log', hfollows', hlength'⟩ := repeated.follows asking hfollows
  have hbelow : log'.length < fuel := by
    simp only [Round.sent_append, List.length_append, Round.length_requests] at enough
    omega
  obtain ⟨more, rfl⟩ := Nat.exists_eq_add_of_lt hbelow
  rw [Nat.add_assoc, hfollows'.run_eq, run, if_neg (by simp [isDone, asking])]
  simp only [called, received]

/-- **Rounds that come to an end are those of a run.** -/
theorem Ends.run_eq {result : Except Error (List NativeItem)}
    (h : Ends t policy table s₀ request rounds s result) {fuel : Nat}
    (enough : (Round.sent rounds).length ≤ fuel) :
    run t policy table fuel s₀ { request } = (s, some result) := by
  cases h with
  | done passed nothing =>
      obtain ⟨log, hfollows, hlength⟩ := passed.follows table
      obtain ⟨more, rfl⟩ := Nat.exists_eq_add_of_le (hlength ▸ enough)
      rw [hfollows.run_eq]
      exact run_of_isDone _ nothing
  | refused passed asking repeated failed fatal =>
      refine passed.run_eq asking repeated failed (fun items => ?_) enough
      exact receive_eq_error.mpr
        (.inl ⟨_, rfl, RetryPolicy.afterFailure_eq_error.mpr (.inl ⟨fatal, rfl⟩)⟩)
  | @exhausted rounds s s₁ s₂ current failures e limit attempts passed asking repeated failed
      retryable limited spent count =>
      have hspent : policy.allows (.ofNat failures.length) = false := by
        rw [spent, UInt32.ofNat_toNat]
        simp [RetryPolicy.allows, limited]
      have hcount : UInt32.ofNat failures.length + 1 = attempts := by
        rw [← UInt32.ofNat_toNat (x := attempts), count, UInt32.ofNat_add]
        rfl
      refine passed.run_eq asking repeated failed (fun items => ?_) enough
      exact receive_eq_error.mpr (.inl ⟨_, rfl,
        RetryPolicy.afterFailure_eq_error.mpr (.inr ⟨retryable, hspent, by rw [hcount]⟩)⟩)
  | grown passed asking repeated replied left more =>
      refine passed.run_eq asking repeated replied (fun items => ?_) enough
      exact receive_eq_error.mpr (.inr ⟨_, _, rfl, left, more, rfl⟩)

/-- **A run ends as its rounds do, or goes on as long as they do.** -/
theorem run_cases (t : Transport σ) (policy : RetryPolicy) (table : String) (s₀ : Session σ)
    (request : BatchRequest) {fuel : Nat} (few : fuel < 2 ^ 32) :
    (∃ rounds s result, Ends t policy table s₀ request rounds s result ∧
      (Round.sent rounds).length ≤ fuel ∧
      run t policy table fuel s₀ { request } = (s, some result)) ∨
    ∃ rounds s₁ current failures s, Passes t policy s₀ request rounds s₁ current ∧
      current.isEmpty = false ∧ Repeats t policy current s₁ failures s ∧
      (Round.sent rounds).length + failures.length = fuel ∧
      run t policy table fuel s₀ { request } = (s, none) := by
  have hstart : Follows t policy table s₀ { request } [] s₀ { request } := .start
  obtain ⟨log, s, p, h, hend⟩ := hstart.run_cases fuel
  have hfew : log.length < 2 ^ 32 := by
    rw [List.length_nil, Nat.zero_add] at hend
    omega
  obtain ⟨rounds, s₁, failures, hpasses, hrepeats, hretries, hitems, hnone, hlength⟩ :=
    h.passes hfew
  rcases hend with ⟨hdone, hcalls, hrun⟩ | ⟨going, hcalls, s', reply, e, called, received, hrun⟩ |
    ⟨going, hcalls, hrun⟩
  · cases hnone hdone
    cases hrepeats.eq_of_nil
    refine .inl ⟨rounds, s, _, .done hpasses hdone, ?_, by rw [hrun, hitems]⟩
    simp only [List.length_nil] at hcalls hlength
    omega
  · simp only [List.length_nil] at hcalls
    have hends := hpasses.ends going hrepeats called hretries (by omega) received
    refine .inl ⟨_, s', _, hends, ?_, hrun⟩
    simp only [Round.sent_append, List.length_append, Round.length_requests]
    omega
  · simp only [List.length_nil] at hcalls
    exact .inr ⟨rounds, s₁, _, failures, s, hpasses, going, hrepeats, by omega, hrun⟩

/-! ### The requests that are sent -/

theorem Repeats.sent_eq (h : Repeats t policy request s₀ failures s) :
    s.calls.map (·.2) = s₀.calls.map (·.2) ++ List.replicate failures.length request := by
  induction h with
  | start => simp
  | @again failures e s s' before failed retryable within ih =>
      obtain ⟨time, hcalls⟩ := calls_of_call failed
      show s'.calls.map (·.2) = _
      rw [hcalls, List.map_append, ih, List.length_append, List.length_singleton,
        List.replicate_succ', List.append_assoc]
      rfl

/-- A round sends its request once, and once more after each failure. -/
theorem Repeats.sent_round {reply : Except Error BatchResponse} {s₂ : Session σ}
    (h : Repeats t policy current s failures s₁) (called : s₁.call t current = (s₂, reply))
    (before : s.calls.map (·.2) = s₀.calls.map (·.2) ++ Round.sent rounds) :
    s₂.calls.map (·.2) =
      s₀.calls.map (·.2) ++ Round.sent (rounds ++ [⟨current, failures, reply⟩]) := by
  obtain ⟨time, hcalls⟩ := calls_of_call called
  rw [hcalls, List.map_append, h.sent_eq, before, Round.sent_append, Round.requests,
    List.replicate_succ', List.append_assoc, List.append_assoc]
  rfl

theorem Passes.sent_eq (h : Passes t policy s₀ request rounds s current) :
    s.calls.map (·.2) = s₀.calls.map (·.2) ++ Round.sent rounds := by
  induction h with
  | start => simp
  | round before asking repeated replied fits ih => exact repeated.sent_round replied ih

theorem Ends.sent_eq {result : Except Error (List NativeItem)}
    (h : Ends t policy table s₀ request rounds s result) :
    s.calls.map (·.2) = s₀.calls.map (·.2) ++ Round.sent rounds := by
  cases h with
  | done passed nothing => exact passed.sent_eq
  | refused passed asking repeated called => exact repeated.sent_round called passed.sent_eq
  | exhausted passed asking repeated called => exact repeated.sent_round called passed.sent_eq
  | grown passed asking repeated called => exact repeated.sent_round called passed.sent_eq

/-! ### From one round to the next -/

/-- The rounds of a request: the first asks for it, each of the others for what the one before it
left, and none of them for nothing. -/
structure Linked (request : BatchRequest) (rounds : List Round) : Prop where
  first : ∀ r ∈ rounds.head?, r.request = request
  chain : rounds.IsChain Round.LeadsTo
  asking : ∀ r ∈ rounds, r.request.isEmpty = false

theorem Linked.snoc {r r' : Round} (h : Linked request (rounds ++ [r])) (hleads : r.LeadsTo r')
    (asking : r'.request.isEmpty = false) : Linked request (rounds ++ [r] ++ [r']) where
  first := by
    rw [List.head?_append_of_ne_nil _ (by simp)]
    exact h.first
  chain := by
    refine List.isChain_append.mpr ⟨h.chain, List.isChain_singleton r', ?_⟩
    simpa using hleads
  asking := by
    intro r₁ hr₁
    rcases List.mem_append.mp hr₁ with hbefore | hlast
    · exact h.asking r₁ hbefore
    · rw [List.mem_singleton.mp hlast]
      exact asking

theorem Passes.linked_last (h : Passes t policy s₀ request rounds s current)
    (asking : current.isEmpty = false) (failures : List Error)
    (reply : Except Error BatchResponse) :
    Linked request (rounds ++ [⟨current, failures, reply⟩]) := by
  induction h generalizing failures reply with
  | start =>
      refine ⟨by simp, List.isChain_singleton _, fun r hr => ?_⟩
      rw [List.mem_singleton.mp hr]
      exact asking
  | @round rounds current failures' response s s₁ s₂ before hasking repeated replied fits ih =>
      refine (ih hasking failures' (.ok response)).snoc ⟨response, rfl, ?_⟩ asking
      cases hnext : response.next? with
      | none =>
          rw [hnext] at asking
          exact absurd asking (by decide)
      | some next => exact BatchResponse.unprocessed_of_next? hnext

theorem Passes.linked (h : Passes t policy s₀ request rounds s current) :
    Linked request rounds := by
  cases h with
  | start => exact ⟨by simp, List.isChain_nil, by simp⟩
  | round before asking => exact before.linked_last asking _ _

theorem Ends.linked {result : Except Error (List NativeItem)}
    (h : Ends t policy table s₀ request rounds s result) : Linked request rounds := by
  cases h with
  | done passed nothing => exact passed.linked
  | refused passed asking => exact passed.linked_last asking _ _
  | exhausted passed asking => exact passed.linked_last asking _ _
  | grown passed asking => exact passed.linked_last asking _ _

/-- **The round loop, call by call.**  A request for nothing is answered without a call.  Any other
is sent round by round, once and once more after each failure that is worth another try and that
the policy allows, every round with a count and waits of its own; what a round is asked for is
what the reply before it left, in every table and with its options.  The run ends well with the
items of its rounds as soon as a reply leaves nothing, and badly just where a round fails or a
reply leaves more than it was asked for; until then it goes on. -/
theorem run_rounds (t : Transport σ) (policy : RetryPolicy) (table : String) (s₀ : Session σ)
    (request : BatchRequest) {fuel : Nat} (few : fuel < 2 ^ 32) :
    (request.isEmpty = true →
      run t policy table fuel s₀ { request } = (s₀, some (.ok []))) ∧
    (∀ s result, run t policy table fuel s₀ { request } = (s, some result) ↔
      ∃ rounds, Ends t policy table s₀ request rounds s result ∧
        (Round.sent rounds).length ≤ fuel) ∧
    (∀ rounds s result, Ends t policy table s₀ request rounds s result →
      s.calls.map (·.2) = s₀.calls.map (·.2) ++ Round.sent rounds ∧ Linked request rounds) ∧
    ∀ s, run t policy table fuel s₀ { request } = (s, none) →
      ∃ rounds s₁ current failures, Passes t policy s₀ request rounds s₁ current ∧
        Linked request rounds ∧ current.isEmpty = false ∧
        Repeats t policy current s₁ failures s ∧
        (Round.sent rounds).length + failures.length = fuel ∧
        s.calls.map (·.2) = s₀.calls.map (·.2) ++ Round.sent rounds ++
          List.replicate failures.length current := by
  refine ⟨fun nothing => run_of_isDone fuel nothing, fun s result => ⟨fun hrun => ?_, ?_⟩,
    fun rounds s result h => ⟨h.sent_eq, h.linked⟩, fun s hrun => ?_⟩
  · obtain ⟨rounds, s', result', hends, hcalls, heq⟩ | ⟨_, _, _, _, _, -, -, -, -, heq⟩ :=
      run_cases t policy table s₀ request few
    · cases hrun.symm.trans heq
      exact ⟨rounds, hends, hcalls⟩
    · cases hrun.symm.trans heq
  · rintro ⟨rounds, hends, hcalls⟩
    exact hends.run_eq hcalls
  · obtain ⟨_, _, _, -, -, heq⟩ |
      ⟨rounds, s₁, current, failures, s', hpasses, hasking, hrepeats, hcalls, heq⟩ :=
      run_cases t policy table s₀ request few
    · cases hrun.symm.trans heq
    · cases hrun.symm.trans heq
      refine ⟨rounds, s₁, current, failures, hpasses, hpasses.linked, hasking, hrepeats, hcalls, ?_⟩
      rw [hrepeats.sent_eq, hpasses.sent_eq]

/-- A call that is throttled, a reply that leaves a key of one table and none of another, and the
rest. -/
theorem run_rounds_two_rounds :
    let item (n : Nat) : NativeItem := Entries.insert ∅ "id" (.leaf (.text s!"user{n}"))
    let options : ReadOptions := (∅ : ReadOptions).withConsistentRead true
    let request : BatchRequest := .ofTable "users" [item 1, item 2, item 3] options
    let left : Dict TableRequest := .ofList [
      ("orders", { keys := [] }), ("users", { keys := [item 3], options })]
    let s₀ : Session (List (Except Error BatchResponse)) := { store := [
      .error (.throttled "slow down"),
      .ok { items := .ofList [("users", [item 1, item 2])], unprocessed := some left },
      .ok { items := .ofList [("users", [item 3])] }] }
    5 < 2 ^ 32 ∧ ∃ s rounds, Ends .prepared .fast "users" s₀ request rounds s
        (.ok [item 1, item 2, item 3]) ∧
      Linked request rounds ∧ (Round.sent rounds).length ≤ 5 ∧
      s.calls.map (·.1) = [0, 10, 10] ∧ s.calls.map (·.2) = Round.sent rounds := by
  intro item options request left s₀
  have few : 5 < 2 ^ 32 := by decide
  have hresult : (run .prepared .fast "users" 5 s₀ { request }).2 =
      some (.ok [item 1, item 2, item 3]) := by
    decide +kernel
  have htimes : (run .prepared .fast "users" 5 s₀ { request }).1.calls.map (·.1) = [0, 10, 10] := by
    decide +kernel
  obtain ⟨-, hends, hsent, -⟩ := run_rounds .prepared .fast "users" s₀ request few
  generalize run .prepared .fast "users" 5 s₀ { request } = ended at *
  obtain ⟨s, result⟩ := ended
  obtain ⟨rounds, h, hcalls⟩ := (hends s _).mp (by rw [← hresult])
  exact ⟨few, s, rounds, h, (hsent _ _ _ h).2, hcalls, htimes, (hsent _ _ _ h).1⟩

end Pager

end ItemStore
