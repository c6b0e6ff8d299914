/-
The course of a fetch, and what each bucket took from it.

`Reaches` forgets how a state was reached.  A `Course` keeps the replies as they were taken,
each with the bucket that took it and the request it was for.  Buckets share the store, so
what one of them is told may well depend on what the others did; but beyond what it is told
nothing reaches it.  So in every course the bucket is where its own replies have taken it
(`Recorded`), and given these replies alone, one after another, a pager goes through the same
requests to the same items (`Pager.Path.run_prepared`).
-/
import ItemStore.Batch.Getter
import ItemStore.Proofs.Batch.Completion
import ItemStore.Proofs.Batch.Rounds

namespace ItemStore

namespace Pager

variable {policy : RetryPolicy} {table : String}

/-! ### A pager and the replies to it -/

/-- The way of a pager through replies, whoever gave them. -/
inductive Path (policy : RetryPolicy) (table : String) (p₀ : Pager) :
    List Exchange → Pager → Prop
  | start : Path policy table p₀ [] p₀
  | reply {log : List Exchange} {p p' : Pager} {reply : Except Error BatchResponse} {wait : Nat}
      (before : Path policy table p₀ log p) (going : p.isDone = false)
      (received : p.receive policy table reply = .ok (p', wait)) :
      Path policy table p₀ (log ++ [⟨p.request, reply⟩]) p'

variable {p₀ p : Pager} {log : List Exchange}

/-- The last reply on the way of a pager. -/
theorem Path.last {x : Exchange} {p' : Pager} (h : Path policy table p₀ (log ++ [x]) p') :
    ∃ p wait, Path policy table p₀ log p ∧ p.isDone = false ∧ x.request = p.request ∧
      p.receive policy table x.reply = .ok (p', wait) := by
  generalize hlog : log ++ [x] = log' at h
  cases h with
  | start => simp at hlog
  | reply before going received =>
      obtain ⟨rfl, hx⟩ := List.append_inj' hlog rfl
      cases hx
      exact ⟨_, _, before, going, rfl, received⟩

/-- The replies say where the pager is. -/
theorem Path.unique (h : Path policy table p₀ log p) :
    ∀ {p' : Pager}, Path policy table p₀ log p' → p' = p := by
  induction h with
  | start =>
      intro p' h'
      generalize hlog : ([] : List Exchange) = log' at h'
      cases h' with
      | start => rfl
      | reply => simp at hlog
  | reply before going received ih =>
      intro p' h'
      obtain ⟨q, wait, hq, -, -, hreceived⟩ := h'.last
      cases ih hq
      cases received.symm.trans hreceived
      rfl

/-- A prepared transport gives its next reply at once. -/
theorem call_prepared {s : Session (List (Except Error BatchResponse))}
    {reply : Except Error BatchResponse} {replies : List (Except Error BatchResponse)}
    (h : s.store = reply :: replies) (request : BatchRequest) :
    s.call .prepared request =
      ({ s with store := replies, calls := s.calls ++ [(s.clock, request)] }, reply) := by
  simp [Session.call, Session.send, Session.reply, Session.wait, Transport.prepared, waitTime, h]

/-- Given the same replies in advance, the pager goes the same way alone. -/
theorem Path.follows (h : Path policy table p₀ log p) :
    ∀ (s₀ : Session (List (Except Error BatchResponse))) (more : List (Except Error BatchResponse)),
      s₀.store = log.map (·.reply) ++ more →
      ∃ s, Follows .prepared policy table s₀ p₀ log s p ∧ s.store = more ∧
        s.calls.map (·.2) = s₀.calls.map (·.2) ++ log.map (·.request) := by
  induction h with
  | start =>
      intro s₀ more hstore
      exact ⟨s₀, .start, hstore, by simp⟩
  | @reply log p p' reply wait before going received ih =>
      intro s₀ more hstore
      obtain ⟨s, hfollows, hs, hcalls⟩ := ih s₀ (reply :: more) (by simp [hstore])
      refine ⟨_, hfollows.call going (call_prepared hs p.request) received, rfl, ?_⟩
      simp [Session.wait, hcalls]

/-- **A pager that is done has what a run gives that is told the same replies.** -/
theorem Path.run_prepared (h : Path policy table p₀ log p) (done : p.isDone = true) (fuel : Nat) :
    ∃ s, run .prepared policy table (log.length + fuel) { store := log.map (·.reply) } p₀ =
        (s, some (.ok p.items)) ∧ s.calls.map (·.2) = log.map (·.request) := by
  obtain ⟨s, hfollows, -, hcalls⟩ := h.follows { store := log.map (·.reply) } [] (by simp)
  refine ⟨s, ?_, by simpa using hcalls⟩
  rw [hfollows.run_eq]
  cases fuel with
  | zero => rw [run, if_pos done]
  | succ fuel => rw [run, if_pos done]

end Pager

namespace Fetch

variable {σ M : Type} {plan : FetchPlan M} {t : Transport σ}

/-! ### The replies of a bucket -/

/-- What one bucket took of all that was taken. -/
def own (i : Nat) (log : List (Nat × Exchange)) : List Exchange :=
  (log.filter fun x => x.1 = i).map (·.2)

@[simp] theorem own_nil (i : Nat) : own i [] = [] := rfl

@[simp] theorem own_append (i : Nat) (log log' : List (Nat × Exchange)) :
    own i (log ++ log') = own i log ++ own i log' := by
  simp [own]

@[simp] theorem own_self (i : Nat) (x : Exchange) : own i [(i, x)] = [x] := by
  simp [own]

theorem own_of_ne {i j : Nat} (h : j ≠ i) (x : Exchange) : own i [(j, x)] = [] := by
  simp [own, h]

theorem mem_of_mem_own {i : Nat} {log : List (Nat × Exchange)} {x : Exchange}
    (h : x ∈ own i log) : (i, x) ∈ log := by
  obtain ⟨y, hy, rfl⟩ := List.mem_map.mp h
  obtain ⟨hmem, hi⟩ := List.mem_filter.mp hy
  have he : y.1 = i := by simpa using hi
  rwa [← he]

/-! ### Courses -/

/-- The reply a step takes, if the bucket that goes on takes one. -/
def taken (t : Transport σ) (s : Fetch σ M) (f : Flight) : List (Nat × Exchange) :=
  if f.calling then [(f.index, ⟨f.pager.request, ((s.arrived f).reply t f.pager.request).2⟩)]
  else []

/-- A number of steps from one state to another, each letting some bucket in flight go on,
and the replies taken on the way. -/
inductive Course (plan : FetchPlan M) (t : Transport σ) (s₀ : Fetch σ M) :
    List (Nat × Exchange) → Fetch σ M → Prop
  | start : Course plan t s₀ [] s₀
  | go {log : List (Nat × Exchange)} {s : Fetch σ M} {f : Flight}
      (before : Course plan t s₀ log s) (going : s.failure = none) (mem : f ∈ s.flights) :
      Course plan t s₀ (log ++ s.taken t f) (s.step plan t f)

theorem Course.reaches {s₀ s : Fetch σ M} {log : List (Nat × Exchange)}
    (h : Course plan t s₀ log s) : ∃ n, Reaches plan t s₀ n s := by
  induction h with
  | start => exact ⟨0, .refl⟩
  | go _ going mem ih =>
      obtain ⟨n, hn⟩ := ih
      exact ⟨n + 1, hn.go going mem⟩

theorem Reaches.course {s₀ s : Fetch σ M} {n : Nat} (h : Reaches plan t s₀ n s) :
    ∃ log, Course plan t s₀ log s := by
  induction h with
  | refl => exact ⟨[], .start⟩
  | go _ going mem ih =>
      obtain ⟨log, hlog⟩ := ih
      exact ⟨_, hlog.go going mem⟩

theorem Course.indices_perm {session : Session σ} {requests : List BatchRequest} {s : Fetch σ M}
    {log : List (Nat × Exchange)} (h : Course plan t (Fetch.start plan session requests) log s)
    (going : s.failure = none) : s.indices.Perm (List.range requests.length) := by
  obtain ⟨n, hreach⟩ := h.reaches
  exact hreach.indices_perm going

theorem Course.nodup_indices {session : Session σ} {requests : List BatchRequest} {s : Fetch σ M}
    {log : List (Nat × Exchange)} (h : Course plan t (Fetch.start plan session requests) log s)
    (going : s.failure = none) : s.indices.Nodup :=
  (h.indices_perm going).nodup_iff.mpr List.nodup_range

/-- Every reply in a course is one the transport gave to its request. -/
theorem Course.replied {s₀ s : Fetch σ M} {log : List (Nat × Exchange)}
    (h : Course plan t s₀ log s) :
    ∀ x ∈ log, ∃ store, x.2.reply = (t.reply store x.2.request).2 := by
  induction h with
  | start => simp
  | @go log s f before going mem ih =>
      intro x hx
      rcases List.mem_append.mp hx with hold | hnew
      · exact ih x hold
      · unfold taken at hnew
        split at hnew
        · rw [List.mem_singleton.mp hnew]
          exact ⟨s.session.store, rfl⟩
        · cases hnew

/-! ### Every bucket is where its own replies have taken it -/

/-- The buckets of a fetch of these requests, after these replies. -/
structure Recorded (plan : FetchPlan M) (requests : List BatchRequest)
    (log : List (Nat × Exchange)) (s : Fetch σ M) : Prop where
  /-- A bucket that waits has its request and has taken nothing. -/
  waiting : ∀ w ∈ s.waiting, requests[w.1]? = some w.2 ∧ own w.1 log = []
  flights : ∀ f ∈ s.flights, ∃ request, requests[f.index]? = some request ∧
    Pager.Path plan.policy plan.table { request } (own f.index log) f.pager ∧
    (f.calling = true → f.pager.isDone = false)
  /-- A bucket that is done has what was built from the items of its way. -/
  finished : ∀ d ∈ s.finished, ∃ request p, requests[d.1]? = some request ∧
    Pager.Path plan.policy plan.table { request } (own d.1 log) p ∧ p.isDone = true ∧
    plan.build p.items = .ok d.2

variable {requests : List BatchRequest} {log : List (Nat × Exchange)}

theorem Recorded.launch {s : Fetch σ M} (h : Recorded plan requests log s) :
    Recorded plan requests log (launch plan s) := by
  obtain ⟨begun, hwaiting, hflights⟩ := launch_split plan s
  refine ⟨?_, ?_, h.finished⟩
  · intro w hw
    refine h.waiting w ?_
    rw [hwaiting]
    exact List.mem_append_right _ hw
  · intro f hf
    rw [hflights] at hf
    rcases List.mem_append.mp hf with hold | hnew
    · exact h.flights f hold
    · obtain ⟨w, hw, rfl⟩ := List.mem_map.mp hnew
      obtain ⟨hrequest, hown⟩ := h.waiting w (by rw [hwaiting]; exact List.mem_append_left _ hw)
      refine ⟨w.2, hrequest, ?_, nofun⟩
      show Pager.Path plan.policy plan.table _ (own w.1 log) _
      rw [hown]
      exact .start

/-- What one bucket takes is nothing to a bucket with another index. -/
theorem own_append_taken {s : Fetch σ M} {f : Flight} {i : Nat} (h : f.index ≠ i) :
    own i (log ++ s.taken t f) = own i log := by
  rw [own_append, taken]
  split
  · rw [own_of_ne h, List.append_nil]
  · rw [own_nil, List.append_nil]

/-- The indices of buckets that wait and of those that are done differ from that of a bucket
in flight. -/
theorem index_ne_of_mem {s : Fetch σ M} {f : Flight} (hnodup : s.indices.Nodup)
    (mem : f ∈ s.flights) :
    (∀ w ∈ s.waiting, f.index ≠ w.1) ∧ ∀ d ∈ s.finished, f.index ≠ d.1 := by
  have hindex : f.index ∈ s.flights.map (·.index) := List.mem_map_of_mem mem
  rw [indices, List.append_assoc, List.nodup_append] at hnodup
  obtain ⟨-, hrest, hwaiting⟩ := hnodup
  rw [List.nodup_append] at hrest
  refine ⟨fun w hw he => ?_, fun d hd he => ?_⟩
  · exact hwaiting w.1 (List.mem_map_of_mem hw) f.index (List.mem_append_left _ hindex) he.symm
  · exact hrest.2.2 f.index hindex d.1 (List.mem_map_of_mem hd) he

theorem Recorded.go {s s' : Fetch σ M} {f : Flight} (h : Recorded plan requests log s)
    (hnodup : s.indices.Nodup) (mem : f ∈ s.flights) (hgoes : Goes plan t s f s') :
    s'.failure = none → Recorded plan requests (log ++ s.taken t f) s' := by
  intro going
  obtain ⟨hwaiting, hfinished⟩ := index_ne_of_mem hnodup mem
  obtain ⟨request, hrequest, hpath, hcalling⟩ := h.flights f mem
  -- The other buckets are where they were.
  have hothers : ∀ g ∈ s.others f, ∃ request, requests[g.index]? = some request ∧
      Pager.Path plan.policy plan.table { request } (own g.index (log ++ s.taken t f)) g.pager ∧
      (g.calling = true → g.pager.isDone = false) := by
    intro g hg
    obtain ⟨hg, hne⟩ := List.mem_filter.mp hg
    rw [own_append_taken fun he => by simp [he] at hne]
    exact h.flights g hg
  have hwaits : ∀ w ∈ s.waiting, requests[w.1]? = some w.2 ∧ own w.1 (log ++ s.taken t f) = [] := by
    intro w hw
    rw [own_append_taken (hwaiting w hw)]
    exact h.waiting w hw
  have hdones : ∀ d ∈ s.finished, ∃ request p, requests[d.1]? = some request ∧
      Pager.Path plan.policy plan.table { request } (own d.1 (log ++ s.taken t f)) p ∧
      p.isDone = true ∧ plan.build p.items = .ok d.2 := by
    intro d hd
    rw [own_append_taken (hfinished d hd)]
    exact h.finished d hd
  cases hgoes with
  | sends due idle left session flights waiting finished failure =>
      have htaken : s.taken t f = [] := by simp [taken, idle]
      refine ⟨waiting ▸ hwaits, ?_, finished ▸ hdones⟩
      intro g hg
      rcases List.mem_cons.mp (flights.mem_iff.mp hg) with rfl | hother
      · rw [htaken, List.append_nil]
        exact ⟨request, hrequest, hpath, fun _ => left⟩
      · exact hothers g hother
  | takes pager wait due calling received session flights waiting finished failure =>
      refine ⟨waiting ▸ hwaits, ?_, finished ▸ hdones⟩
      intro g hg
      rcases List.mem_cons.mp (flights.mem_iff.mp hg) with rfl | hother
      · refine ⟨request, hrequest, ?_, nofun⟩
        rw [taken, if_pos calling, own_append, own_self]
        exact hpath.reply (hcalling calling) received
      · exact hothers g hother
  | fails e calling received => cases going
  | finishes models idle done built =>
      have htaken : s.taken t f = [] := by simp [taken, idle]
      refine Recorded.launch ⟨hwaits, hothers, ?_⟩
      intro d hd
      rcases List.mem_append.mp hd with hold | hnew
      · exact hdones d hold
      · rw [List.mem_singleton.mp hnew, htaken, List.append_nil]
        exact ⟨request, f.pager, hrequest, hpath, done, built⟩
  | breaks e idle done built => cases going

/-- **In every course that has not failed, every bucket is where its own replies have taken
it.** -/
theorem Course.recorded {session : Session σ} {s : Fetch σ M}
    (h : Course plan t (Fetch.start plan session requests) log s) (going : s.failure = none) :
    Recorded plan requests log s := by
  induction h with
  | start =>
      refine Recorded.launch ⟨?_, by simp, by simp⟩
      intro w hw
      obtain ⟨i, hi, rfl⟩ := List.getElem_of_mem hw
      have hi' : i < requests.length := by simpa using hi
      simp [hi']
  | go before hgoing mem ih =>
      have hbefore := before.nodup_indices hgoing
      exact (ih hgoing).go hbefore mem (step_goes (nodup_flights hbefore) mem) going

end Fetch

/-! ### The fetch of a getter -/

namespace Getter

variable {σ M : Type}

/-- What is done with the buckets of keys. -/
def planFor (g : Getter M) (keys : List NativeKey) (options : ReadOptions) : FetchPlan M :=
  g.plan (g.requests keys options).length

/-- A fetch of keys before its first step. -/
def startFor (g : Getter M) (session : Session σ) (keys : List NativeKey)
    (options : ReadOptions) : Fetch σ M :=
  .start (g.planFor keys options) session (g.requests keys options)

/-- Getting is one order of the steps of a fetch, followed as far as the fuel goes. -/
theorem getWithin_reaches {g : Getter M} {records : List KeyRecord} {keys : List NativeKey}
    (hkeys : g.buildKeys records = .ok keys) (fuel : Nat) (t : Transport σ) (session : Session σ)
    (options : ReadOptions) :
    ∃ n s, Fetch.Reaches (g.planFor keys options) t (g.startFor session keys options) n s ∧
      (n = fuel ∨ s.failure ≠ none ∨ s.flights = []) ∧
      g.getWithin fuel t session records options = (s.session, s.result?) := by
  obtain ⟨n, hreach, hend⟩ := Fetch.run_reaches (g.planFor keys options) t fuel
    (g.startFor session keys options)
  refine ⟨n, _, hreach, hend, ?_⟩
  rw [getWithin, hkeys]
  rfl

end Getter

end ItemStore
