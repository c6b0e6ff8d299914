/-
What is seen of a fetch from outside.

A `Course` keeps the replies that were taken.  A `Trace` writes down all that is seen of the
buckets, in the order in which it happens: that a bucket is started, that it sends a request,
that it takes a reply, and what it comes to in the end.  A bucket begins where it comes to be
in flight without having been so before.

The requests in a trace are those that the transport was sent (`Trace.calls`), and the replies
are those of a course (`Trace.course`).  As long as a fetch goes on, the buckets that began are
those in flight and those that are done (`Trace.begun_perm`), and what buckets came to are the
results of the fetch, none of them an error (`Trace.ended_eq`).  The step that ends a fetch ends
its trace too, and the last that is seen is the error (`seen_of_failure`).
-/
import ItemStore.Proofs.Batch.Limit

namespace ItemStore.Fetch

variable {σ M : Type} {plan : FetchPlan M} {t : Transport σ}

/-- What is seen of a bucket. -/
inductive Event (M : Type)
  /-- It is started. -/
  | begins
  /-- It sends a request. -/
  | calls (request : BatchRequest)
  /-- It takes the reply to its request. -/
  | takes (exchange : Exchange)
  /-- It comes to its result or to an error. -/
  | ends (result : Except Error (List M))

namespace Event

def begins? : Event M → Option Unit
  | .begins => some ()
  | _ => none

def call? : Event M → Option BatchRequest
  | .calls request => some request
  | _ => none

def exchange? : Event M → Option Exchange
  | .takes exchange => some exchange
  | _ => none

def result? : Event M → Option (Except Error (List M))
  | .ends result => some result
  | _ => none

end Event

/-! ### Traces -/

/-- The buckets that are in flight and were not before. -/
def entered (s s' : Fetch σ M) : List Nat :=
  (s'.flights.map (·.index)).filter fun i => i ∉ s.flights.map (·.index)

/-- What a bucket does that goes on. -/
def doing (plan : FetchPlan M) (t : Transport σ) (s : Fetch σ M) (f : Flight) : List (Event M) :=
  if f.calling then
    let reply := ((s.arrived f).reply t f.pager.request).2
    .takes ⟨f.pager.request, reply⟩ ::
      match f.pager.receive plan.policy plan.table reply with
      | .ok _ => []
      | .error e => [.ends (.error e)]
  else if f.pager.isDone then [.ends (plan.build f.pager.items)]
  else [.calls f.pager.request]

/-- The start of buckets, as it is seen. -/
def starts (is : List Nat) : List (Nat × Event M) :=
  is.map fun i => (i, .begins)

/-- What is seen of a step: what its bucket does, and the buckets that begin. -/
def seen (plan : FetchPlan M) (t : Transport σ) (s : Fetch σ M) (f : Flight) (s' : Fetch σ M) :
    List (Nat × Event M) :=
  (s.doing plan t f).map (fun e => (f.index, e)) ++ starts (s.entered s')

/-- A number of steps from one state to another, each letting some bucket in flight go on, and
what is seen of them. -/
inductive Trace (plan : FetchPlan M) (t : Transport σ) (s₀ : Fetch σ M) :
    List (Nat × Event M) → Fetch σ M → Prop
  | start : Trace plan t s₀ (starts (s₀.flights.map (·.index))) s₀
  | go {tr : List (Nat × Event M)} {s : Fetch σ M} {f : Flight} (before : Trace plan t s₀ tr s)
      (going : s.failure = none) (mem : f ∈ s.flights) :
      Trace plan t s₀ (tr ++ s.seen plan t f (s.step plan t f)) (s.step plan t f)

/-! ### What is in a trace -/

section Select

variable {α : Type} (p : Event M → Option α) (tr tr' : List (Nat × Event M))

/-- The events of one kind, each with the bucket of which it is seen. -/
def select : List (Nat × α) :=
  tr.filterMap fun x => (p x.2).map fun a => (x.1, a)

@[simp] theorem select_append : select p (tr ++ tr') = select p tr ++ select p tr' :=
  List.filterMap_append ..

@[simp] theorem select_map (i : Nat) (es : List (Event M)) :
    select p (es.map fun e => (i, e)) = (es.filterMap p).map fun a => (i, a) := by
  simp [select, List.filterMap_map, List.map_filterMap]

theorem select_starts (is : List Nat) (h : p .begins = none) : select p (starts is) = [] := by
  simp [select, starts, List.filterMap_map, h]

/-- The buckets that were started. -/
def begun : List Nat :=
  (select Event.begins? tr).map (·.1)

/-- The requests that were sent. -/
def called : List (Nat × BatchRequest) :=
  select Event.call? tr

/-- The replies that were taken. -/
def answered : List (Nat × Exchange) :=
  select Event.exchange? tr

/-- What the buckets came to. -/
def ended : List (Nat × Except Error (List M)) :=
  select Event.result? tr

@[simp] theorem begun_append : begun (tr ++ tr') = begun tr ++ begun tr' := by
  simp [begun]

@[simp] theorem called_append : called (tr ++ tr') = called tr ++ called tr' :=
  select_append ..

@[simp] theorem answered_append : answered (tr ++ tr') = answered tr ++ answered tr' :=
  select_append ..

@[simp] theorem ended_append : ended (tr ++ tr') = ended tr ++ ended tr' :=
  select_append ..

@[simp] theorem begun_starts (is : List Nat) : begun (M := M) (starts is) = is := by
  simp [begun, select, starts, List.filterMap_map, List.map_map, Event.begins?, Function.comp_def]

@[simp] theorem called_starts (is : List Nat) : called (M := M) (starts is) = [] :=
  select_starts _ is rfl

@[simp] theorem answered_starts (is : List Nat) : answered (M := M) (starts is) = [] :=
  select_starts _ is rfl

@[simp] theorem ended_starts (is : List Nat) : ended (M := M) (starts is) = [] :=
  select_starts _ is rfl

end Select

variable {s₀ s s' : Fetch σ M} {f : Flight} {tr : List (Nat × Event M)}

theorem begun_seen (plan : FetchPlan M) (t : Transport σ) (s : Fetch σ M) (f : Flight)
    (s' : Fetch σ M) : begun (s.seen plan t f s') = s.entered s' := by
  have hnone : (s.doing plan t f).filterMap Event.begins? = [] := by
    unfold doing
    split
    · dsimp only
      split <;> rfl
    · split <;> rfl
  rw [seen, begun_append, begun_starts, begun, select_map, hnone]
  rfl

theorem called_seen (plan : FetchPlan M) (t : Transport σ) (s : Fetch σ M) (f : Flight)
    (s' : Fetch σ M) : called (s.seen plan t f s') =
      if f.calling || f.pager.isDone then [] else [(f.index, f.pager.request)] := by
  have hdoing : (s.doing plan t f).filterMap Event.call? =
      if f.calling || f.pager.isDone then [] else [f.pager.request] := by
    unfold doing
    by_cases hcalling : f.calling = true
    · simp only [hcalling, if_true, Bool.true_or]
      split <;> rfl
    · by_cases hdone : f.pager.isDone = true
      · simp [hcalling, hdone, Event.call?]
      · simp [hcalling, hdone, Event.call?]
  rw [seen, called_append, called_starts, called, select_map, hdoing, List.append_nil]
  split <;> rfl

/-- The replies that are seen are those of a course. -/
theorem answered_seen (plan : FetchPlan M) (t : Transport σ) (s : Fetch σ M) (f : Flight)
    (s' : Fetch σ M) : answered (s.seen plan t f s') = s.taken t f := by
  rw [seen, answered_append, answered_starts, answered, select_map, List.append_nil]
  unfold doing taken
  by_cases hcalling : f.calling = true
  · simp only [hcalling, if_true]
    split <;> rfl
  · by_cases hdone : f.pager.isDone = true
    · simp [hcalling, hdone, Event.exchange?]
    · simp [hcalling, hdone, Event.exchange?]

/-! ### Traces and courses -/

theorem Trace.course (h : Trace plan t s₀ tr s) : Course plan t s₀ (answered tr) s := by
  induction h with
  | start =>
      rw [answered_starts]
      exact .start
  | go _ going mem ih =>
      rw [answered_append, answered_seen]
      exact ih.go going mem

theorem Reaches.trace {n : Nat} (h : Reaches plan t s₀ n s) : ∃ tr, Trace plan t s₀ tr s := by
  induction h with
  | refl => exact ⟨_, .start⟩
  | go _ going mem ih =>
      obtain ⟨tr, htr⟩ := ih
      exact ⟨_, htr.go going mem⟩

theorem calls_of_seen (h : Goes plan t s f s') :
    s'.session.calls.map (·.2) =
      s.session.calls.map (·.2) ++ (called (s.seen plan t f s')).map (·.2) := by
  rw [called_seen]
  cases h with
  | sends due idle left session flights waiting finished failure =>
      simp [session, idle, left, Session.send, arrived]
  | takes pager wait due calling received session flights waiting finished failure =>
      simp [session, calling, Session.reply, arrived]
  | fails e calling received => simp [calling, Session.reply, arrived]
  | finishes models idle done built => simp [done, arrived]
  | breaks e idle done built => simp [done, arrived]

section Start

variable {session : Session σ} {requests : List BatchRequest}

/-- **The requests in a trace are those that the transport was sent.** -/
theorem Trace.calls (h : Trace plan t (Fetch.start plan session requests) tr s) :
    s.session.calls.map (·.2) = session.calls.map (·.2) ++ (called tr).map (·.2) := by
  induction h with
  | start =>
      rw [called_starts]
      exact (List.append_nil _).symm
  | go before going mem ih =>
      have hflights := nodup_flights (before.course.nodup_indices going)
      rw [calls_of_seen (step_goes hflights mem), ih, called_append, List.map_append,
        List.append_assoc]

end Start

/-! ### The buckets that begin -/

/-- No bucket enters where those in flight were so before. -/
theorem entered_eq_nil (h : ∀ g ∈ s'.flights, g.index ∈ s.flights.map (·.index)) :
    s.entered s' = [] := by
  unfold entered
  rw [List.filter_eq_nil_iff]
  intro i hi
  obtain ⟨g, hg, rfl⟩ := List.mem_map.mp hi
  simpa using h g hg

theorem index_mem_of_others {g : Flight} (hg : g ∈ s.others f) :
    g.index ∈ s.flights.map (·.index) :=
  List.mem_map_of_mem (List.mem_filter.mp hg).1

/-- No bucket enters where one goes on in its place. -/
theorem entered_of_perm {g : Flight} (mem : f ∈ s.flights)
    (flights : s'.flights.Perm (g :: s.others f)) (hindex : g.index = f.index) :
    s.entered s' = [] := by
  apply entered_eq_nil
  intro h hh
  rcases List.mem_cons.mp (flights.mem_iff.mp hh) with rfl | hother
  · rw [hindex]
    exact List.mem_map_of_mem mem
  · exact index_mem_of_others hother

/-- Where one bucket gives way to others that waited, just these enter. -/
theorem entered_launch (plan : FetchPlan M) (r : Fetch σ M) (hnodup : s.indices.Nodup)
    (waiting : r.waiting = s.waiting) (flights : r.flights = s.others f) :
    (launch plan r).flights.map (·.index) =
      (s.others f).map (·.index) ++ s.entered (launch plan r) := by
  obtain ⟨begun, hwaiting, hflights⟩ := launch_split plan r
  have hbegun : (begun.map r.launched).map (·.index) = begun.map (·.1) := by
    rw [List.map_map]
    rfl
  have hothers : ((s.others f).map (·.index)).filter
      (fun i => i ∉ s.flights.map (·.index)) = [] := by
    rw [List.filter_eq_nil_iff]
    intro i hi
    obtain ⟨g, hg, rfl⟩ := List.mem_map.mp hi
    simpa using index_mem_of_others hg
  have hnew : (begun.map (·.1)).filter (fun i => i ∉ s.flights.map (·.index)) =
      begun.map (·.1) := by
    rw [List.filter_eq_self]
    intro i hi
    obtain ⟨w, hw, rfl⟩ := List.mem_map.mp hi
    rw [decide_eq_true_eq]
    intro hflying
    obtain ⟨g, hg, hindex⟩ := List.mem_map.mp hflying
    have hwaits : w ∈ s.waiting := by
      rw [← waiting, hwaiting]
      exact List.mem_append_left _ hw
    exact (index_ne_of_mem hnodup hg).1 w hwaits hindex
  unfold entered
  rw [hflights, flights, List.map_append, hbegun, List.filter_append, hothers, hnew,
    List.nil_append]

/-- The step that ends a fetch starts no bucket. -/
theorem entered_of_failure (h : Goes plan t s f s') (going : s.failure = none)
    (failed : s'.failure ≠ none) : s.entered s' = [] := by
  cases h with
  | sends due idle left session flights waiting finished failure =>
      rw [failure] at failed
      exact absurd going failed
  | takes pager wait due calling received session flights waiting finished failure =>
      rw [failure] at failed
      exact absurd going failed
  | fails e calling received => exact entered_eq_nil fun g hg => List.mem_map_of_mem hg
  | finishes models idle done built => exact absurd going failed
  | breaks e idle done built => exact entered_eq_nil fun g hg => index_mem_of_others hg

/-- The buckets that began are those in flight and those that are done. -/
theorem begun_of_goes (hnodup : s.indices.Nodup) (mem : f ∈ s.flights) (h : Goes plan t s f s')
    (going : s'.failure = none)
    (hbegun : (begun tr).Perm (s.flights.map (·.index) ++ s.finished.map (·.1))) :
    (begun (tr ++ s.seen plan t f s')).Perm
      (s'.flights.map (·.index) ++ s'.finished.map (·.1)) := by
  have hsplit := (flights_perm (nodup_flights hnodup) mem).map (·.index)
  rw [begun_append, begun_seen]
  cases h with
  | sends due idle left session flights waiting finished failure =>
      rw [entered_of_perm mem flights rfl, List.append_nil, finished]
      have hsame := hsplit.trans (flights.map (·.index)).symm
      exact hbegun.trans (hsame.append_right _)
  | takes pager wait due calling received session flights waiting finished failure =>
      rw [entered_of_perm mem flights rfl, List.append_nil, finished]
      have hsame := hsplit.trans (flights.map (·.index)).symm
      exact hbegun.trans (hsame.append_right _)
  | fails e calling received => cases going
  | finishes models idle done built =>
      have hflights := entered_launch plan { s with
        session := s.arrived f
        flights := s.others f
        finished := s.finished ++ [(f.index, models)] } hnodup rfl rfl
      rw [hflights, launch_finished, List.perm_iff_count]
      intro i
      have hbefore := hbegun.count_eq i
      have hflying := hsplit.count_eq i
      simp only [List.map_append, List.map_cons, List.map_nil, List.count_append, List.count_cons,
        List.count_nil] at hbefore hflying ⊢
      omega
  | breaks e idle done built => cases going

section Start

variable {session : Session σ} {requests : List BatchRequest}

/-- **As long as a fetch goes on, the buckets that began are those in flight and those that are
done.** -/
theorem Trace.begun_perm (h : Trace plan t (Fetch.start plan session requests) tr s)
    (going : s.failure = none) :
    (begun tr).Perm (s.flights.map (·.index) ++ s.finished.map (·.1)) := by
  induction h with
  | start =>
      rw [begun_starts]
      exact List.Perm.of_eq (List.append_nil _).symm
  | go before hgoing mem ih =>
      have hnodup := before.course.nodup_indices hgoing
      exact begun_of_goes hnodup mem (step_goes (nodup_flights hnodup) mem) going (ih hgoing)

/-! ### What buckets come to -/

/-- The results of the buckets that are done. -/
def results (s : Fetch σ M) : List (Nat × Except Error (List M)) :=
  s.finished.map fun d => (d.1, .ok d.2)

theorem exists_of_mem_results {d : Nat × Except Error (List M)} (h : d ∈ s.results) :
    ∃ models, d.2 = .ok models := by
  obtain ⟨d', -, rfl⟩ := List.mem_map.mp h
  exact ⟨d'.2, rfl⟩

theorem results_of_goes (h : Goes plan t s f s') (going : s'.failure = none) :
    s'.results = s.results ++ ended (s.seen plan t f s') := by
  unfold results
  rw [seen, ended_append, ended_starts, ended, select_map, List.append_nil]
  unfold doing
  cases h with
  | sends due idle left session flights waiting finished failure =>
      simp [idle, left, finished, Event.result?]
  | takes pager wait due calling received session flights waiting finished failure =>
      simp [calling, received, finished, Event.result?]
  | fails e calling received => cases going
  | finishes models idle done built => simp [idle, done, built, Event.result?]
  | breaks e idle done built => cases going

/-- **As long as a fetch goes on, what buckets came to are its results.** -/
theorem Trace.ended_eq (h : Trace plan t (Fetch.start plan session requests) tr s)
    (going : s.failure = none) : ended tr = s.results := by
  induction h with
  | start =>
      rw [ended_starts]
      rfl
  | go before hgoing mem ih =>
      have hflights := nodup_flights (before.course.nodup_indices hgoing)
      rw [ended_append, ih hgoing, ← results_of_goes (step_goes hflights mem) going]

end Start

theorem mem_ended {i : Nat} {r : Except Error (List M)}
    (h : (i, .ends r) ∈ tr) : (i, r) ∈ ended tr :=
  List.mem_filterMap.mpr ⟨_, h, rfl⟩

/-- An error that is seen at the end and nowhere before is the only one that is seen. -/
theorem first_error {l before after : List (Nat × Event M)} {i j : Nat} {e e' : Error}
    (hwell : ∀ d ∈ ended l, ∃ models, d.2 = .ok models)
    (h : l ++ [(i, .ends (.error e))] = before ++ (j, .ends (.error e')) :: after) :
    after = [] ∧ l = before ∧ i = j ∧ e = e' := by
  rcases List.eq_nil_or_concat after with rfl | ⟨rest, x, rfl⟩
  · obtain ⟨rfl, hlast⟩ := List.append_inj' h rfl
    cases hlast
    exact ⟨rfl, rfl, rfl, rfl⟩
  · rw [List.concat_eq_append, ← List.cons_append, ← List.append_assoc] at h
    obtain ⟨rfl, -⟩ := List.append_inj' h rfl
    obtain ⟨models, hmodels⟩ := hwell (j, .error e') (mem_ended (by simp))
    cases hmodels

/-- The step that ends a fetch shows, at last, that its bucket comes to the error: because of
the reply it takes, or because its items can not be made into results. -/
theorem seen_of_failure (h : Goes plan t s f s') (going : s.failure = none) {e : Error}
    (failed : s'.failure = some e) :
    ∃ first, s.seen plan t f s' = first ++ [(f.index, .ends (.error e))] ∧ ended first = [] ∧
      ((f.calling = true ∧ f.pager.receive plan.policy plan.table
          ((s.arrived f).reply t f.pager.request).2 = .error e) ∨
        (f.calling = false ∧ f.pager.isDone = true ∧ plan.build f.pager.items = .error e)) := by
  rw [seen, entered_of_failure h going (by simp [failed])]
  unfold doing
  cases h with
  | sends due idle left session flights waiting finished failure =>
      cases going.symm.trans (failure.symm.trans failed)
  | takes pager wait due calling received session flights waiting finished failure =>
      cases going.symm.trans (failure.symm.trans failed)
  | fails e calling received =>
      cases failed
      refine ⟨[(f.index, .takes ⟨f.pager.request, ((s.arrived f).reply t f.pager.request).2⟩)],
        ?_, rfl, Or.inl ⟨calling, received⟩⟩
      simp [calling, received, starts]
  | finishes models idle done built => cases going.symm.trans failed
  | breaks e idle done built =>
      cases failed
      exact ⟨[], by simp [idle, done, built, starts], rfl, Or.inr ⟨idle, done, built⟩⟩

end ItemStore.Fetch
