/-
No key is lost or asked for twice on the way to the end of a request.

`Pager.Follows` goes call by call the way `Pager.run` goes and writes down every request
with its reply.  At each point of the way what has been answered so far and what is still
asked for make up the request at the start: a failure repeats the request as it is, and a
successful reply splits it into what it answers and what it leaves, which is just what the
next round asks for, in however many tables.  At the end nothing is asked for any more, so
everything has been answered.
-/
import Mathlib.Algebra.Order.Sub.Basic
import ItemStore.Batch.Pager
import ItemStore.Proofs.Batch.Keys
import ItemStore.Proofs.Except

namespace ItemStore

/-- A request and the reply to it. -/
structure Exchange where
  request : BatchRequest
  reply : Except Error BatchResponse

/-- The keys that were answered: of a successful reply those it does not leave. -/
def Exchange.answered (x : Exchange) : Multiset (String × NativeKey) :=
  match x.reply with
  | .ok response => x.request.wanted - response.leftOver
  | .error _ => 0

namespace Pager

variable {σ : Type} {t : Transport σ} {policy : RetryPolicy} {table : String}

/-- What a reply leads to if it does not end the matter: a successful one to the next round,
a failure to the same request again. -/
theorem receive_cases {p p' : Pager} {reply : Except Error BatchResponse} {wait : Nat}
    (h : p.receive policy table reply = .ok (p', wait)) :
    (∃ response, reply = .ok response ∧
      (response.next?.getD ∅).keyCount ≤ p.request.keyCount ∧ wait = 0 ∧ p' = {
        request := response.next?.getD ∅
        items := p.items ++ response.itemsFor table }) ∨
    (∃ e, reply = .error e ∧ policy.afterFailure p.retries e = .ok wait ∧
      p' = { p with retries := p.retries + 1 }) := by
  cases reply with
  | ok response =>
      simp only [receive] at h
      by_cases hgrown : p.request.keyCount < (response.next?.getD ∅).keyCount
      · rw [if_pos hgrown] at h
        cases h
      · rw [if_neg hgrown] at h
        cases h
        exact Or.inl ⟨response, rfl, Nat.le_of_not_lt hgrown, rfl, rfl⟩
  | error e =>
      obtain ⟨wait', hafter, he⟩ := map_eq_ok.mp h
      cases he
      exact Or.inr ⟨e, rfl, hafter, rfl⟩

/-- A reply that leaves no more keys than were asked for ends its round. -/
theorem receive_of_fits {response : BatchResponse} {p : Pager}
    (h : (response.next?.getD ∅).keyCount ≤ p.request.keyCount) :
    p.receive policy table (.ok response) = .ok ({
      request := response.next?.getD ∅
      items := p.items ++ response.itemsFor table }, 0) := by
  rw [receive]
  exact if_neg (Nat.not_lt.mpr h)

/-- A failure after which the policy goes on repeats the request. -/
theorem receive_of_failure {p : Pager} {e : Error} {wait : Nat}
    (h : policy.afterFailure p.retries e = .ok wait) :
    p.receive policy table (.error e) = .ok ({ p with retries := p.retries + 1 }, wait) := by
  rw [receive, h]
  rfl

/-- How a reply ends the matter. -/
theorem receive_eq_error {p : Pager} {reply : Except Error BatchResponse} {e : Error} :
    p.receive policy table reply = .error e ↔
      (∃ e', reply = .error e' ∧ policy.afterFailure p.retries e' = .error e) ∨
        ∃ response next, reply = .ok response ∧ response.next? = some next ∧
          p.request.keyCount < next.keyCount ∧ .grown next.keyCount p.request.keyCount = e := by
  cases reply with
  | error e' =>
      unfold receive
      cases hafter : policy.afterFailure p.retries e' with
      | error e₁ => simp [Except.map, hafter]
      | ok wait => simp [Except.map, hafter]
  | ok response =>
      unfold receive
      cases hnext : response.next? with
      | none =>
          have hnone : ¬ p.request.keyCount < (∅ : BatchRequest).keyCount := Nat.not_lt_zero _
          simp [hnone, hnext]
      | some next =>
          by_cases hgrown : p.request.keyCount < next.keyCount
          · simp [hgrown, hnext]
          · simp [hgrown, hnext]

/-! ### The way of a request -/

/-- A pager and the session it is in, after the calls in the list. -/
inductive Follows (t : Transport σ) (policy : RetryPolicy) (table : String) (s₀ : Session σ)
    (p₀ : Pager) : List Exchange → Session σ → Pager → Prop
  | start : Follows t policy table s₀ p₀ [] s₀ p₀
  | call {log : List Exchange} {s s' : Session σ} {p p' : Pager}
      {reply : Except Error BatchResponse} {wait : Nat}
      (before : Follows t policy table s₀ p₀ log s p) (going : p.isDone = false)
      (called : s.call t p.request = (s', reply))
      (received : p.receive policy table reply = .ok (p', wait)) :
      Follows t policy table s₀ p₀ (log ++ [⟨p.request, reply⟩]) (s'.wait wait) p'

variable {s₀ s : Session σ} {p₀ p : Pager} {log : List Exchange}

/-- A call is noted with its time. -/
theorem calls_of_call {s' : Session σ} {request : BatchRequest}
    {reply : Except Error BatchResponse} (called : s.call t request = (s', reply)) :
    ∃ time, s'.calls = s.calls ++ [(time, request)] :=
  ⟨s.clock, (congrArg (fun next => next.1.calls) called).symm⟩

/-- A run takes this way. -/
theorem Follows.run_eq (h : Follows t policy table s₀ p₀ log s p) :
    ∀ fuel, run t policy table (log.length + fuel) s₀ p₀ = run t policy table fuel s p := by
  induction h with
  | start =>
      intro fuel
      rw [List.length_nil, Nat.zero_add]
  | @call log s s' p p' reply wait before going called received ih =>
      intro fuel
      rw [List.length_append, List.length_singleton, Nat.add_assoc, ih, Nat.add_comm 1, run,
        if_neg (by simp [going])]
      simp only [called, received]

theorem run_of_isDone (fuel : Nat) (done : p.isDone = true) :
    run t policy table fuel s p = (s, some (.ok p.items)) := by
  cases fuel with
  | zero => rw [run, if_pos done]
  | succ fuel => rw [run, if_pos done]

/-- How far a run goes: to where nothing is left to ask for, to a reply that ends the matter, or
as far as its fuel lets it. -/
theorem Follows.run_cases (fuel : Nat) :
    ∀ {log : List Exchange} {s : Session σ} {p : Pager}, Follows t policy table s₀ p₀ log s p →
      ∃ log' s' p', Follows t policy table s₀ p₀ log' s' p' ∧
        ((p'.isDone = true ∧ log'.length ≤ log.length + fuel ∧
            run t policy table fuel s p = (s', some (.ok p'.items))) ∨
          (p'.isDone = false ∧ log'.length < log.length + fuel ∧ ∃ s'' reply e,
            s'.call t p'.request = (s'', reply) ∧ p'.receive policy table reply = .error e ∧
            run t policy table fuel s p = (s'', some (.error e))) ∨
          (p'.isDone = false ∧ log'.length = log.length + fuel ∧
            run t policy table fuel s p = (s', none))) := by
  induction fuel with
  | zero =>
      intro log s p h
      by_cases hdone : p.isDone = true
      · exact ⟨log, s, p, h, .inl ⟨hdone, Nat.le_refl _, run_of_isDone 0 hdone⟩⟩
      · exact ⟨log, s, p, h, .inr (.inr ⟨by simpa using hdone, rfl, by rw [run, if_neg hdone]⟩)⟩
  | succ fuel ih =>
      intro log s p h
      by_cases hdone : p.isDone = true
      · exact ⟨log, s, p, h, .inl ⟨hdone, Nat.le_add_right _ _, run_of_isDone _ hdone⟩⟩
      have going : p.isDone = false := by simpa using hdone
      obtain ⟨s₁, reply, hcalled⟩ : ∃ s₁ reply, s.call t p.request = (s₁, reply) := ⟨_, _, rfl⟩
      cases hreceived : p.receive policy table reply with
      | error e =>
          refine ⟨log, s, p, h, .inr (.inl ⟨going, by omega, s₁, reply, e, hcalled, hreceived, ?_⟩)⟩
          rw [run, if_neg hdone]
          simp only [hcalled, hreceived]
      | ok next =>
          have hnext := h.call going hcalled hreceived
          have hrun : run t policy table (fuel + 1) s p =
              run t policy table fuel (s₁.wait next.2) next.1 := by
            rw [run, if_neg hdone]
            simp only [hcalled, hreceived]
          have hlength : (log ++ [Exchange.mk p.request reply]).length + fuel =
              log.length + (fuel + 1) := by
            simp only [List.length_append, List.length_singleton]
            omega
          rw [hrun, ← hlength]
          exact ih hnext

/-- A run that ends well has gone this way until nothing was left to ask for. -/
theorem Follows.of_run (fuel : Nat) {s' : Session σ} {items : List NativeItem}
    (h : Follows t policy table s₀ p₀ log s p)
    (hrun : run t policy table fuel s p = (s', some (.ok items))) :
    ∃ log' p', Follows t policy table s₀ p₀ log' s' p' ∧ p'.isDone = true ∧ p'.items = items := by
  obtain ⟨log', s₁, p', h', ⟨hdone, -, heq⟩ | ⟨-, -, s'', reply, e, -, -, heq⟩ | ⟨-, -, heq⟩⟩ :=
    h.run_cases fuel
  · rw [hrun] at heq
    cases heq
    exact ⟨log', p', h', hdone, rfl⟩
  · rw [hrun] at heq
    cases heq
  · rw [hrun] at heq
    cases heq

/-! ### Keys answered and keys asked for -/

/-- A call answers what it takes away from what is asked for. -/
theorem answered_add_wanted {p p' : Pager} {reply : Except Error BatchResponse} {wait : Nat}
    (hsplits : ∀ response, reply = .ok response → response.leftOver ≤ p.request.wanted)
    (h : p.receive policy table reply = .ok (p', wait)) :
    Exchange.answered ⟨p.request, reply⟩ + p'.request.wanted = p.request.wanted := by
  rcases receive_cases h with ⟨response, rfl, -, -, rfl⟩ | ⟨e, rfl, -, rfl⟩
  · rw [BatchResponse.wanted_next]
    exact tsub_add_cancel_of_le (hsplits response rfl)
  · exact zero_add _

theorem splits_call (hsplits : t.Splits) {s s' : Session σ} {request : BatchRequest}
    {response : BatchResponse} (h : s.call t request = (s', .ok response)) :
    response.leftOver ≤ request.wanted := by
  have hreply : (t.reply (t.send s.store request).1 request).2 = .ok response :=
    congrArg Prod.snd h
  exact hsplits _ request _ response (Prod.ext rfl hreply)

/-- **At every point of the way the keys answered and the keys still asked for make up the
request at the start.** -/
theorem Follows.conserved (hsplits : t.Splits) (h : Follows t policy table s₀ p₀ log s p) :
    (log.map Exchange.answered).sum + p.request.wanted = p₀.request.wanted := by
  induction h with
  | start => exact zero_add _
  | call before going called received ih =>
      have hcall := answered_add_wanted
        (fun response he => splits_call hsplits (he ▸ called)) received
      rw [List.map_append, List.sum_append, List.map_singleton, List.sum_singleton, add_assoc,
        hcall, ih]

/-- **No key is dropped or answered twice.**  With a transport that splits what it is asked,
the keys answered and the keys still asked for make up the request wherever a run passes,
and if it ends well every key has been answered as often as it was asked for. -/
theorem run_answers_once (hsplits : t.Splits) (policy : RetryPolicy) (table : String)
    (s₀ : Session σ) (request : BatchRequest) :
    (∀ log s p, Follows t policy table s₀ { request } log s p →
      (∀ fuel, run t policy table (log.length + fuel) s₀ { request } =
        run t policy table fuel s p) ∧
      (log.map Exchange.answered).sum + p.request.wanted = request.wanted) ∧
    ∀ fuel s items, run t policy table fuel s₀ { request } = (s, some (.ok items)) →
      ∃ log p, Follows t policy table s₀ { request } log s p ∧ p.items = items ∧
        (log.map Exchange.answered).sum = request.wanted := by
  refine ⟨fun log s p h => ⟨h.run_eq, h.conserved hsplits⟩, fun fuel s items hrun => ?_⟩
  obtain ⟨log, p, h, hdone, hitems⟩ := Follows.of_run fuel .start hrun
  have hnothing : p.request.wanted = 0 := (BatchRequest.isEmpty_iff _).mp hdone
  have hconserved := h.conserved hsplits
  rw [hnothing, add_zero] at hconserved
  exact ⟨log, p, h, hitems, hconserved⟩

/-- Keys of two tables, one of them twice, of which a call looks up one. -/
theorem run_answers_once_two_tables :
    let key (n : Nat) : NativeKey := Entries.insert ∅ "id" (.leaf (.text s!"user{n}"))
    let request : BatchRequest := { tables := .ofList [
      ("orders", { keys := [key 1] }), ("users", { keys := [key 1, key 2, key 1] })] }
    let s₀ : Session Store := { store := {
      tables := .ofList [("users", [key 1])]
      pageLimit := some 1 } }
    Store.transport.Splits ∧ request.wanted.card = 4 ∧
    ∃ s, run Store.transport .immediate "users" 5 s₀ { request } = (s, some (.ok [key 1, key 1])) ∧
      ∃ log p, Follows Store.transport .immediate "users" s₀ { request } log s p ∧
        p.items = [key 1, key 1] ∧ (log.map Exchange.answered).sum = request.wanted :=
  ⟨Store.transport_splits, rfl, _, rfl,
    (run_answers_once Store.transport_splits .immediate "users" _ _).2 5 _ _ rfl⟩

end Pager

end ItemStore
