/-
How a fetch ends.

A measure bounds the calls that are still to come, those that need bring no bucket forward
and for every bucket the others, and so the steps:

    left(s) = 2 · spare + Σ over buckets in flight of (2 · ahead + 1, or 2 · ahead while a call
              is out) + Σ over buckets that wait of (2 · ahead + 1)

Sending a call lowers it by one, a reply by at least one, and a bucket that is done takes its
last one away.  So no order of steps is longer than the measure at the start
(`left_of_reaches`), and a run with more fuel than that has nothing left in flight
(`run_ends`).  `Getter.get` computes its fuel from the measure `work`, in which the bucket's
calls are its keys and the others are the backlog.

Then every bucket has its result, in some order, and sorting by index restores the order
of the buckets (`models_eq`).
-/
import Mathlib.Algebra.GroupWithZero.Nat
import ItemStore.Proofs.Batch.Schedule

namespace ItemStore.Fetch

variable {σ M : Type} {plan : FetchPlan M} {t : Transport σ}

/-! ### Measures -/

/-- A bound on the calls that are still to come. -/
structure Measure (σ : Type) where
  /-- The calls that need bring no bucket forward. -/
  spare : σ → Nat
  /-- The other calls of a bucket. -/
  ahead : Nat → Pager → Nat

namespace Measure

/-- The steps of a bucket in flight: two for each call, and one to end. -/
def flight (m : Measure σ) (f : Flight) : Nat :=
  2 * m.ahead f.index f.pager + if f.calling then 0 else 1

/-- The steps of a bucket that waits. -/
def waiting (m : Measure σ) (w : Nat × BatchRequest) : Nat :=
  2 * m.ahead w.1 { request := w.2 } + 1

/-- The steps that are left. -/
def left (m : Measure σ) (s : Fetch σ M) : Nat :=
  2 * m.spare s.session.store + (s.flights.map m.flight).sum + (s.waiting.map m.waiting).sum

end Measure

/-- Every reply that does not end the fetch lowers the measure. -/
structure Rule.Lowers (r : Rule plan t) (m : Measure σ) : Prop where
  send : ∀ {x i p}, r.store x → r.flight i p false → m.spare (t.send x p.request).1 ≤ m.spare x
  take : ∀ {x i p pager wait}, r.store x → r.flight i p true →
    p.receive plan.policy plan.table (t.reply x p.request).2 = .ok (pager, wait) →
    m.spare (t.reply x p.request).1 + m.ahead i pager < m.spare x + m.ahead i p

variable {m : Measure σ}

/-- Starting a bucket is no step. -/
theorem left_launch (m : Measure σ) (s : Fetch σ M) : m.left (launch plan s) = m.left s := by
  obtain ⟨begun, hwaiting, hflights⟩ := launch_split plan s
  have hbegun : (begun.map s.launched).map m.flight = begun.map m.waiting := by
    rw [List.map_map]
    rfl
  unfold Measure.left
  rw [hwaiting, hflights, List.map_append, List.map_append, hbegun, List.sum_append,
    List.sum_append, launch_session]
  omega

theorem left_of_goes {r : Rule plan t} (lowers : r.Lowers m) {s s' : Fetch σ M} {f : Flight}
    (h : r.Holds s) (hnodup : (s.flights.map (·.index)).Nodup) (mem : f ∈ s.flights)
    (hgoes : Goes plan t s f s') (going : s'.failure = none) : m.left s' < m.left s := by
  have hf := h.flights f mem
  have hsplit : (s.flights.map m.flight).sum = m.flight f + ((s.others f).map m.flight).sum := by
    rw [((flights_perm hnodup mem).map m.flight).sum_nat, List.map_cons, List.sum_cons]
  cases hgoes with
  | sends due idle left session flights waiting finished failure =>
      rw [idle] at hf
      have hspare : m.spare s'.session.store ≤ m.spare s.session.store := by
        rw [session]
        exact lowers.send h.store hf
      unfold Measure.left
      rw [waiting, (flights.map m.flight).sum_nat, List.map_cons, List.sum_cons, hsplit]
      simp only [Measure.flight, idle, if_true, Bool.false_eq_true, if_false]
      omega
  | takes pager wait due calling received session flights waiting finished failure =>
      rw [calling] at hf
      have hspare : m.spare s'.session.store + m.ahead f.index pager
          < m.spare s.session.store + m.ahead f.index f.pager := by
        rw [session]
        exact lowers.take h.store hf received
      unfold Measure.left
      rw [waiting, (flights.map m.flight).sum_nat, List.map_cons, List.sum_cons, hsplit]
      simp only [Measure.flight, calling, if_true, Bool.false_eq_true, if_false]
      omega
  | fails e calling received => cases going
  | finishes models idle done built =>
      rw [left_launch]
      unfold Measure.left
      rw [hsplit]
      simp only [Measure.flight, idle, arrived, Bool.false_eq_true, if_false]
      omega
  | breaks e idle done built => cases going

/-- **No order of steps is longer than the measure at the start.** -/
theorem left_of_reaches {r : Rule plan t} (lowers : r.Lowers m) {s₀ s : Fetch σ M} {n : Nat}
    (hnodup : s₀.indices.Nodup) (h₀ : r.Holds s₀) (h : Reaches plan t s₀ n s)
    (going : s.failure = none) : n + m.left s ≤ m.left s₀ := by
  induction h with
  | refl => omega
  | go before hgoing mem ih =>
      have hbefore := reaches_indices hnodup before hgoing
      have hflights := nodup_flights (hbefore.nodup_iff.mpr hnodup)
      have hless := left_of_goes lowers (Rule.holds_of_reaches hnodup h₀ before) hflights mem
        (step_goes hflights mem) going
      have := ih hgoing
      omega

/-! ### The work that is left

The measure that suits a store whose replies answer keys: each call answers one, or shortens
the backlog.
-/

/-- The steps a bucket in flight takes if every call answers one key. -/
def flightWork (f : Flight) : Nat :=
  2 * f.pager.request.keyCount + if f.calling then 0 else 1

/-- The steps a bucket that waits takes if every call answers one key. -/
def waitingWork (w : Nat × BatchRequest) : Nat :=
  2 * w.2.keyCount + 1

/-- A bound on the steps that are left. -/
def work (t : Transport σ) (s : Fetch σ M) : Nat :=
  2 * t.backlog s.session.store + (s.flights.map flightWork).sum + (s.waiting.map waitingWork).sum

/-- Every reply that does not end the fetch answers a key or shortens the backlog. -/
structure Rule.Advances (r : Rule plan t) : Prop where
  send : ∀ {x i p}, r.store x → r.flight i p false →
    t.backlog (t.send x p.request).1 ≤ t.backlog x
  take : ∀ {x i p pager wait}, r.store x → r.flight i p true →
    p.receive plan.policy plan.table (t.reply x p.request).2 = .ok (pager, wait) →
    t.backlog (t.reply x p.request).1 + pager.request.keyCount <
      t.backlog x + p.request.keyCount

/-- The backlog, and a call for every key. -/
def Measure.keys (t : Transport σ) : Measure σ where
  spare := t.backlog
  ahead _ p := p.request.keyCount

theorem work_eq_left (t : Transport σ) (s : Fetch σ M) : s.work t = (Measure.keys t).left s := rfl

theorem Rule.Advances.lowers {r : Rule plan t} (adv : r.Advances) : r.Lowers (Measure.keys t) :=
  ⟨adv.send, adv.take⟩

/-- **No order of steps is longer than the work at the start.** -/
theorem work_of_reaches {r : Rule plan t} (adv : r.Advances) {s₀ s : Fetch σ M} {n : Nat}
    (hnodup : s₀.indices.Nodup) (h₀ : r.Holds s₀) (h : Reaches plan t s₀ n s)
    (going : s.failure = none) : n + s.work t ≤ s₀.work t :=
  left_of_reaches adv.lowers hnodup h₀ h going

/-! ### A run is one order of steps -/

theorem earliest_eq_none {fs : List Flight} (h : earliest fs = none) : fs = [] := by
  cases fs with
  | nil => rfl
  | cons f fs =>
      rw [earliest] at h
      split at h
      · split at h <;> cases h
      · cases h

theorem mem_of_earliest {fs : List Flight} {f : Flight} (h : earliest fs = some f) : f ∈ fs := by
  induction fs generalizing f with
  | nil => cases h
  | cons g fs ih =>
      rw [earliest] at h
      split at h
      · rename_i e he
        split at h
        · cases h
          exact List.mem_cons_of_mem _ (ih he)
        · cases h
          exact List.mem_cons_self ..
      · cases h
        exact List.mem_cons_self ..

/-- A run ends because its fuel is used up, because it failed, or because nothing is in
flight. -/
theorem run_reaches (plan : FetchPlan M) (t : Transport σ) :
    ∀ (fuel : Nat) (s : Fetch σ M), ∃ n, Reaches plan t s n (s.run plan t fuel) ∧
      (n = fuel ∨ (s.run plan t fuel).failure ≠ none ∨ (s.run plan t fuel).flights = []) := by
  intro fuel
  induction fuel with
  | zero => intro s; exact ⟨0, .refl, Or.inl rfl⟩
  | succ fuel ih =>
      intro s
      rw [run]
      by_cases hfail : s.failure.isSome = true
      · rw [if_pos hfail]
        exact ⟨0, .refl, Or.inr (Or.inl (Option.isSome_iff_ne_none.mp hfail))⟩
      · rw [if_neg hfail]
        have hgoing : s.failure = none := by simpa using hfail
        cases hnext : earliest s.flights with
        | none => exact ⟨0, .refl, Or.inr (Or.inr (earliest_eq_none hnext))⟩
        | some f =>
            obtain ⟨n, hreach, hend⟩ := ih (s.step plan t f)
            refine ⟨n + 1, hreach.head hgoing (mem_of_earliest hnext), ?_⟩
            rcases hend with hn | hrest
            · exact Or.inl (by omega)
            · exact Or.inr hrest

/-- **With more fuel than the measure at the start a run ends with nothing in flight.** -/
theorem flights_of_run {r : Rule plan t} (lowers : r.Lowers m) {s : Fetch σ M}
    (hnodup : s.indices.Nodup) (h : r.Holds s) {fuel : Nat} (hfuel : m.left s < fuel)
    (going : (s.run plan t fuel).failure = none) : (s.run plan t fuel).flights = [] := by
  obtain ⟨n, hreach, hend⟩ := run_reaches plan t fuel s
  rcases hend with hn | hfail | hempty
  · have := left_of_reaches lowers hnodup h hreach going
    omega
  · exact absurd going hfail
  · exact hempty

/-- With more fuel than there is work a run ends with nothing in flight. -/
theorem run_ends {r : Rule plan t} (adv : r.Advances) {s : Fetch σ M} (hnodup : s.indices.Nodup)
    (h : r.Holds s) {fuel : Nat} (hfuel : s.work t < fuel)
    (going : (s.run plan t fuel).failure = none) : (s.run plan t fuel).flights = [] :=
  flights_of_run adv.lowers hnodup h hfuel going

/-! ### Nothing waits when nothing is in flight -/

/-- Buckets wait only while as many as allowed are in flight. -/
def Full (plan : FetchPlan M) (s : Fetch σ M) : Prop :=
  s.waiting = [] ∨ plan.concurrency ≤ s.flights.length

theorem full_launch (s : Fetch σ M) : Full plan (launch plan s) := by
  unfold Full launch
  simp only [List.drop_eq_nil_iff, List.length_append, List.length_map, List.length_take]
  omega

theorem full_of_goes {s s' : Fetch σ M} {f : Flight} (hnodup : (s.flights.map (·.index)).Nodup)
    (mem : f ∈ s.flights) (hfull : Full plan s) (hgoes : Goes plan t s f s')
    (going : s'.failure = none) : Full plan s' := by
  have hlength : s.flights.length = (s.others f).length + 1 :=
    (flights_perm hnodup mem).length_eq
  cases hgoes with
  | sends due _ _ _ flights waiting _ _ =>
      have hsame : s'.flights.length = (s.others f).length + 1 := flights.length_eq
      unfold Full at hfull ⊢
      rw [waiting, hsame, ← hlength]
      exact hfull
  | takes pager wait due _ _ _ flights waiting _ _ =>
      have hsame : s'.flights.length = (s.others f).length + 1 := flights.length_eq
      unfold Full at hfull ⊢
      rw [waiting, hsame, ← hlength]
      exact hfull
  | fails e _ _ => cases going
  | finishes models _ _ _ => exact full_launch _
  | breaks e _ _ _ => cases going

theorem full_of_reaches {s₀ s : Fetch σ M} {n : Nat} (hnodup : s₀.indices.Nodup)
    (h₀ : Full plan s₀) (h : Reaches plan t s₀ n s) (going : s.failure = none) : Full plan s := by
  induction h with
  | refl => exact h₀
  | go before hgoing mem ih =>
      have hbefore := reaches_indices hnodup before hgoing
      have hflights := nodup_flights (hbefore.nodup_iff.mpr hnodup)
      exact full_of_goes hflights mem (ih hgoing) (step_goes hflights mem) going

/-! ### The results in bucket order -/

/-- Sorting the results by their buckets undoes the order in which they came. -/
theorem models_eq {s : Fetch σ M} {count : Nat} {result : Nat → List M}
    (hperm : (s.finished.map (·.1)).Perm (List.range count))
    (hresult : ∀ d ∈ s.finished, d.2 = result d.1) :
    s.models = (List.range count).flatMap result := by
  set sorted := s.finished.mergeSort fun a b => a.1 ≤ b.1 with hsorted
  have hmerge : sorted.Perm s.finished := List.mergeSort_perm _ _
  have hpairwise : (sorted.map (·.1)).Pairwise (· ≤ ·) := by
    rw [List.pairwise_map]
    refine (List.pairwise_mergeSort ?_ ?_ _).imp fun h => by simpa using h
    · intro a b c hab hbc
      simp only [decide_eq_true_eq] at hab hbc ⊢
      omega
    · intro a b
      simp only [Bool.or_eq_true, decide_eq_true_eq]
      omega
  have hindices : sorted.map (·.1) = List.range count :=
    ((hmerge.map _).trans hperm).eq_of_pairwise (fun a b _ _ hab hba => Nat.le_antisymm hab hba)
      hpairwise List.pairwise_le_range
  have hmodels : sorted.map (·.2) = (sorted.map (·.1)).map result := by
    rw [List.map_map]
    exact List.map_congr_left fun d hd => hresult d (hmerge.mem_iff.mp hd)
  show sorted.flatMap (·.2) = _
  rw [List.flatMap_def, hmodels, hindices, ← List.flatMap_def]

/-! ### The start -/

theorem start_indices (plan : FetchPlan M) (session : Session σ) (requests : List BatchRequest) :
    (start plan session requests).indices.Perm (List.range requests.length) := by
  refine (launch_indices plan _).trans (List.Perm.of_eq ?_)
  simp [indices, List.map_fst_zip]

/-- As long as a fetch goes on, every bucket is in one place. -/
theorem Reaches.indices_perm {session : Session σ} {requests : List BatchRequest} {n : Nat}
    {s : Fetch σ M} (h : Reaches plan t (start plan session requests) n s)
    (going : s.failure = none) : s.indices.Perm (List.range requests.length) := by
  have hstart := start_indices plan session requests
  exact (reaches_indices (hstart.nodup_iff.mpr List.nodup_range) h going).trans hstart

theorem start_work (plan : FetchPlan M) (session : Session σ) (requests : List BatchRequest) :
    (start plan session requests).work t =
      2 * t.backlog session.store + (requests.map fun r => 2 * r.keyCount + 1).sum := by
  have hsnd : ((List.range requests.length).zip requests).map (·.2) = requests :=
    List.map_snd_zip (by simp)
  have hzip : ((List.range requests.length).zip requests).map waitingWork =
      requests.map fun r => 2 * r.keyCount + 1 := by
    conv_rhs => rw [← hsnd, List.map_map]
    rfl
  unfold start
  rw [work_eq_left, left_launch, ← work_eq_left]
  simp [work, hzip]

theorem start_holds {r : Rule plan t} {session : Session σ} {requests : List BatchRequest}
    (hstore : r.store session.store)
    (hflight : ∀ (i : Nat) (h : i < requests.length), r.flight i { request := requests[i] } false) :
    r.Holds (start plan session requests) := by
  refine Rule.holds_launch ⟨hstore, ?_, by simp, by simp, by simp⟩
  intro w hw
  obtain ⟨i, hi, rfl⟩ := List.getElem_of_mem hw
  have hi' : i < requests.length := by simpa using hi
  simpa using hflight i hi'

/-- A fetch has come to its end well when nothing has failed and no bucket is left. -/
theorem result?_eq_ok_iff {s : Fetch σ M} {models : List M} :
    s.result? = some (.ok models) ↔
      s.failure = none ∧ s.flights = [] ∧ s.waiting = [] ∧ s.models = models := by
  unfold result?
  cases hfailure : s.failure with
  | some e => simp
  | none => simp [and_assoc]

/-- With nothing in flight every bucket is done. -/
theorem finished_of_reaches {session : Session σ} {requests : List BatchRequest}
    {s : Fetch σ M} {n : Nat} (hconcurrency : 0 < plan.concurrency)
    (h : Reaches plan t (start plan session requests) n s) (going : s.failure = none)
    (hflights : s.flights = []) :
    s.waiting = [] ∧ (s.finished.map (·.1)).Perm (List.range requests.length) := by
  have hstart := start_indices plan session requests
  have hnodup := hstart.nodup_iff.mpr List.nodup_range
  have hwaiting : s.waiting = [] := by
    rcases full_of_reaches hnodup (full_launch _) h going with hempty | hfull
    · exact hempty
    · rw [hflights, List.length_nil] at hfull
      omega
  exact ⟨hwaiting, by simpa [indices, hwaiting, hflights] using h.indices_perm going⟩

/-- **With nothing in flight the result is that of every bucket, in the order of the
buckets.** -/
theorem result_of_reaches {session : Session σ} {requests : List BatchRequest}
    {s : Fetch σ M} {n : Nat} (hconcurrency : 0 < plan.concurrency)
    (h : Reaches plan t (start plan session requests) n s) (going : s.failure = none)
    (hflights : s.flights = []) (result : Nat → List M)
    (hresult : ∀ d ∈ s.finished, d.2 = result d.1) :
    s.result? = some (.ok ((List.range requests.length).flatMap result)) := by
  obtain ⟨hwaiting, hfinished⟩ := finished_of_reaches hconcurrency h going hflights
  exact result?_eq_ok_iff.mpr ⟨going, hflights, hwaiting, models_eq hfinished hresult⟩

end ItemStore.Fetch
