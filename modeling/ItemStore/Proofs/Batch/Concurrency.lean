/-
How many calls are out at once.

The calls of a trace that are not answered are those of the buckets whose call is out, and each
bucket in flight has one or none (`Trace.out`).  There are never more buckets in flight than the
plan allows, because a bucket is started only in the place of one that is done (`Trace.room`);
a bucket that waits for a retry keeps its place.  This holds as long as a fetch goes on, and the
step that ends it sends nothing, so every trace is within the bounds of the plan
(`Trace.within`).  And a bucket that began is in flight or done, never to begin again.
-/
import Mathlib.Data.List.Count
import ItemStore.Proofs.Batch.Trace

namespace ItemStore

namespace Fetch

variable {σ M : Type} {plan : FetchPlan M} {t : Transport σ}
variable {s s' : Fetch σ M} {f : Flight} {tr : List (Nat × Event M)}

/-! ### Calls that are out -/

/-- The buckets of a kind whose call is out. -/
def out (P : Nat → Bool) (s : Fetch σ M) : Nat :=
  s.flights.countP fun f => f.calling && P f.index

theorem out_of_perm {fs : List Flight} {g : Flight} (flights : s.flights.Perm (g :: fs))
    (P : Nat → Bool) : s.out P =
      (fs.countP fun f => f.calling && P f.index) + if g.calling && P g.index then 1 else 0 := by
  unfold out
  rw [flights.countP_eq, List.countP_cons]

/-- Starting buckets sends no call. -/
theorem out_launch (plan : FetchPlan M) (s : Fetch σ M) (P : Nat → Bool) :
    (launch plan s).out P = s.out P := by
  obtain ⟨begun, -, hflights⟩ := launch_split plan s
  have hnone : ((begun.map s.launched).countP fun f => f.calling && P f.index) = 0 := by
    rw [List.countP_eq_zero]
    intro f hf
    obtain ⟨w, -, rfl⟩ := List.mem_map.mp hf
    simp [launched]
  unfold out
  rw [hflights, List.countP_append, hnone, Nat.add_zero]

/-- With every call there is one more bucket whose call is out, and with every answer one
less. -/
theorem out_of_goes (hnodup : (s.flights.map (·.index)).Nodup) (mem : f ∈ s.flights)
    (h : Goes plan t s f s') (going : s'.failure = none) (P : Nat → Bool) :
    s.out P + ((called (s.seen plan t f s')).map (·.1)).countP P =
      ((answered (s.seen plan t f s')).map (·.1)).countP P + s'.out P := by
  rw [called_seen, answered_seen, taken, out_of_perm (flights_perm hnodup mem)]
  cases h with
  | sends due idle left session flights waiting finished failure =>
      rw [out_of_perm flights]
      simp [idle, left, List.countP_cons]
  | takes pager wait due calling received session flights waiting finished failure =>
      rw [out_of_perm flights]
      simp [calling, List.countP_cons]
      omega
  | fails e calling received => cases going
  | finishes models idle done built =>
      rw [out_launch]
      simp [idle, done, out]
  | breaks e idle done built => cases going

section Start

variable {session : Session σ} {requests : List BatchRequest}

/-- **As long as a fetch goes on, the calls without an answer are those of the buckets whose
call is out.** -/
theorem Trace.out (h : Trace plan t (Fetch.start plan session requests) tr s)
    (going : s.failure = none) (P : Nat → Bool) :
    ((called tr).map (·.1)).countP P = ((answered tr).map (·.1)).countP P + s.out P := by
  induction h with
  | start =>
      rw [called_starts, answered_starts, Fetch.start, out_launch]
      rfl
  | go before hgoing mem ih =>
      have hflights := nodup_flights (before.course.nodup_indices hgoing)
      have hstep := out_of_goes hflights mem (step_goes hflights mem) going P
      rw [called_append, answered_append, List.map_append, List.map_append, List.countP_append,
        List.countP_append, ih hgoing]
      omega

end Start

/-! ### Room for buckets -/

theorem length_launch_le (h : s.flights.length ≤ plan.concurrency) :
    (launch plan s).flights.length ≤ plan.concurrency := by
  unfold launch
  simp only [List.length_append, List.length_map, List.length_take]
  omega

theorem room_of_goes (hnodup : (s.flights.map (·.index)).Nodup) (mem : f ∈ s.flights)
    (h : Goes plan t s f s') (going : s'.failure = none)
    (hroom : s.flights.length ≤ plan.concurrency) : s'.flights.length ≤ plan.concurrency := by
  have hlength : s.flights.length = (s.others f).length + 1 := (flights_perm hnodup mem).length_eq
  cases h with
  | sends due idle left session flights waiting finished failure =>
      rw [flights.length_eq, List.length_cons]
      omega
  | takes pager wait due calling received session flights waiting finished failure =>
      rw [flights.length_eq, List.length_cons]
      omega
  | fails e calling received => cases going
  | finishes models idle done built =>
      apply length_launch_le
      show (s.others f).length ≤ plan.concurrency
      omega
  | breaks e idle done built => cases going

section Start

variable {session : Session σ} {requests : List BatchRequest}

/-- **There are never more buckets in flight than the plan allows.** -/
theorem Trace.room (h : Trace plan t (Fetch.start plan session requests) tr s)
    (going : s.failure = none) : s.flights.length ≤ plan.concurrency := by
  induction h with
  | start => exact length_launch_le (Nat.zero_le _)
  | go before hgoing mem ih =>
      have hflights := nodup_flights (before.course.nodup_indices hgoing)
      exact room_of_goes hflights mem (step_goes hflights mem) going (ih hgoing)

/-- Only buckets that began send calls. -/
theorem Trace.begun_of_called (h : Trace plan t (Fetch.start plan session requests) tr s) :
    ∀ i ∈ (called tr).map (·.1), i ∈ begun tr := by
  induction h with
  | start => simp
  | @go tr s f before going mem ih =>
      rw [called_append, begun_append, called_seen]
      intro i hi
      rw [List.map_append, List.mem_append] at hi
      rcases hi with hold | hnew
      · exact List.mem_append_left _ (ih i hold)
      · split at hnew
        · cases hnew
        · rw [List.mem_singleton.mp hnew]
          refine List.mem_append_left _ ((before.begun_perm going).mem_iff.mpr ?_)
          exact List.mem_append_left _ (List.mem_map_of_mem mem)

end Start

/-! ### The bounds -/

/-- A trace in which there are never more calls out than a bound, of each bucket one at most,
and in which every bucket begins once at most, and before it calls. -/
structure Within (bound count : Nat) (tr : List (Nat × Event M)) : Prop where
  calls : (called tr).length ≤ (answered tr).length + bound
  each : ∀ i, ((answered tr).map (·.1)).count i ≤ ((called tr).map (·.1)).count i ∧
    ((called tr).map (·.1)).count i ≤ ((answered tr).map (·.1)).count i + 1
  once : (begun tr).Nodup
  known : ∀ i ∈ (called tr).map (·.1), i ∈ begun tr
  some : ∀ i ∈ begun tr, i < count

/-- Of one bucket there is at most one call out. -/
theorem out_index_le_one (hnodup : (s.flights.map (·.index)).Nodup) (i : Nat) :
    s.out (· == i) ≤ 1 := by
  refine Nat.le_trans ?_ (List.nodup_iff_count_le_one.mp hnodup i)
  unfold out
  rw [List.count, List.countP_map]
  apply List.countP_mono_left
  intro f _ hf
  exact (Bool.and_eq_true_iff.mp hf).2

section Start

variable {session : Session σ} {requests : List BatchRequest}

/-- A trace is within bounds as long as the fetch goes on, and still after a last answer to a
call that is out. -/
theorem Trace.within_of_last (h : Trace plan t (Fetch.start plan session requests) tr s)
    (going : s.failure = none) {bound : Nat}
    (hbound : min plan.concurrency requests.length ≤ bound) {tr' : List (Nat × Event M)}
    {last : List (Nat × Exchange)} (hbegun : begun tr' = begun tr)
    (hcalled : called tr' = called tr) (hanswered : answered tr' = answered tr ++ last)
    (hlast : ∀ P : Nat → Bool, (last.map (·.1)).countP P ≤ s.out P) :
    Within bound requests.length tr' := by
  have hindices := h.course.indices_perm going
  have hnodup := h.course.nodup_indices going
  have hplaces := h.begun_perm going
  rw [indices, List.append_assoc] at hindices hnodup
  constructor
  · have hout := h.out going fun _ => true
    have hflying := List.countP_le_length (p := fun f : Flight => f.calling && true) (l := s.flights)
    have hroom := h.room going
    have hcount := hindices.length_eq
    simp only [List.countP_true, List.length_map, Fetch.out] at hout
    simp only [List.length_append, List.length_map, List.length_range] at hcount
    rw [hcalled, hanswered, List.length_append]
    omega
  · intro i
    have hout := h.out going (· == i)
    have hone := out_index_le_one (nodup_flights (h.course.nodup_indices going)) i
    have hleft := hlast (· == i)
    rw [hcalled, hanswered, List.map_append, List.count_append]
    unfold List.count
    omega
  · rw [hbegun, hplaces.nodup_iff]
    exact (List.nodup_append.mp hnodup).2.1
  · rw [hbegun, hcalled]
    exact h.begun_of_called
  · rw [hbegun]
    intro i hi
    have hmem := List.mem_append_right (s.waiting.map (·.1)) (hplaces.mem_iff.mp hi)
    exact List.mem_range.mp (hindices.mem_iff.mp hmem)

/-- **Every trace of a fetch is within the bounds of its plan.** -/
theorem Trace.within (h : Trace plan t (Fetch.start plan session requests) tr s) {bound : Nat}
    (hbound : min plan.concurrency requests.length ≤ bound) :
    Within bound requests.length tr := by
  cases hfailure : s.failure with
  | none =>
      exact h.within_of_last hfailure hbound rfl rfl (List.append_nil _).symm
        fun P => Nat.zero_le _
  | some e =>
      cases h with
      | start => cases hfailure
      | @go tr s f before going mem =>
          have hflights := nodup_flights (before.course.nodup_indices going)
          have hgoes : Goes plan t s f (s.step plan t f) := step_goes hflights mem
          obtain ⟨-, -, -, hwhy⟩ := seen_of_failure hgoes going hfailure
          refine before.within_of_last going hbound ?_ ?_
            ((answered_append _ _).trans (congrArg _ (answered_seen ..))) fun P => ?_
          · rw [begun_append, begun_seen, entered_of_failure hgoes going (by simp [hfailure]),
              List.append_nil]
          · rw [called_append, called_seen, if_pos, List.append_nil]
            rcases hwhy with ⟨hcalling, -⟩ | ⟨-, hdone, -⟩
            · simp [hcalling]
            · simp [hdone]
          · -- What is answered at last, if anything, is the call of the bucket that went on.
            rw [out_of_perm (flights_perm hflights mem), taken]
            split
            · rename_i hcalling
              simp [hcalling, List.countP_cons]
            · exact Nat.zero_le _

end Start

end Fetch

/-! ### The settings of a getter -/

namespace Getter

variable {σ M : Type}

/-- The plan of a getter allows no more buckets than its settings, or than there are. -/
theorem Built.min_concurrency_le {g : Getter M} (h : g.Built) (count : Nat) :
    min (g.plan count).concurrency count ≤ g.config.maxConcurrency.getD count := by
  have hsome := (BatchConfig.validate_eq_ok_iff.mp h.validate).2.1
  unfold plan
  cases hmax : g.config.maxConcurrency with
  | none => simp
  | some limit =>
      have hlimit : limit ≠ 0 := fun h0 => hsome (h0 ▸ hmax)
      simp only [Option.getD_some]
      omega

/--
**There are never more calls out than the settings allow**, or, if these set no limit, than
there are buckets; no bucket has more than one, and none begins twice.

The transport may be any, and so may the order of the steps, of which getting takes one.  What
is seen of the fetch up to any moment is a trace, whose calls are those that were sent.
-/
theorem Built.calls_within_concurrency {g : Getter M} (built : g.Built) (t : Transport σ)
    (session : Session σ) (records : List KeyRecord) (options : ReadOptions) :
    (∀ e, g.buildKeys records = .error e → ∀ fuel,
      g.getWithin fuel t session records options = (session, some (.error e))) ∧
    ∀ keys, g.buildKeys records = .ok keys →
      let plan := g.planFor keys options
      let start := g.startFor session keys options
      let count := (g.requests keys options).length
      (∀ fuel, ∃ tr s, Fetch.Trace plan t start tr s ∧
        g.getWithin fuel t session records options = (s.session, s.result?)) ∧
      ∀ tr s, Fetch.Trace plan t start tr s →
        s.session.calls.map (·.2) =
          session.calls.map (·.2) ++ (Fetch.called tr).map (·.2) ∧
        Fetch.Within (g.config.maxConcurrency.getD count) count tr := by
  refine ⟨fun e failed fuel => ?_, fun keys hkeys => ?_⟩
  · rw [getWithin, failed]
  · intro plan start count
    refine ⟨fun fuel => ?_, fun tr s h => ⟨h.calls, h.within (built.min_concurrency_le count)⟩⟩
    obtain ⟨n, s, hreach, -, hget⟩ := getWithin_reaches hkeys fuel t session options
    obtain ⟨tr, htrace⟩ := hreach.trace
    exact ⟨tr, s, htrace, hget⟩

/-- Three buckets of one key against a store that takes its time, two of them at a time. -/
theorem calls_within_concurrency_of_three :
    let key (id : String) : NativeKey := Entries.insert ∅ "id" (.leaf (.text id))
    let config : BatchConfig := { maxBatchSize := 1, maxConcurrency := some 2 }
    let g : Getter Item := {
      table := .plain "users" (Schema.ofHashKey "id" .string), config }
    let session : Session Store := { store := { latency := 5 } }
    let records : List KeyRecord :=
      [{ hash := .text "a" }, { hash := .text "b" }, { hash := .text "c" }]
    let after := (g.getWithin 9 Store.transport session records ∅).1
    g.Built ∧ g.buildKeys records = .ok [key "a", key "b", key "c"] ∧ after.store.peak = 2 ∧
      ∃ tr : List (Nat × Fetch.Event Item),
        after.calls.map (·.2) = (Fetch.called tr).map (·.2) ∧ after.calls.length = 3 ∧
        Fetch.Within 2 3 tr := by
  intro key config g session records after
  have hvalid : config.validate = .ok () := by decide +kernel
  have accepted : ({ table := .plain "users" (Schema.ofHashKey "id" .string) } :
      Getter Item).withConfig config = .ok g := by
    rw [withConfig, hvalid]
  have built : g.Built := .withConfig (.new _ _) accepted
  have hkeys : g.buildKeys records = .ok [key "a", key "b", key "c"] := by decide +kernel
  obtain ⟨hruns, hevery⟩ :=
    (built.calls_within_concurrency Store.transport session records ∅).2 _ hkeys
  obtain ⟨tr, s, htrace, hget⟩ := hruns 9
  have hafter : s.session = after := (congrArg Prod.fst hget).symm
  obtain ⟨hcalls, hwithin⟩ := hevery tr s htrace
  have hcount : (g.requests [key "a", key "b", key "c"] ∅).length = 3 := by decide +kernel
  rw [hcount] at hwithin
  rw [hafter] at hcalls
  exact ⟨built, hkeys, by decide +kernel, tr, hcalls, by decide +kernel, hwithin⟩

end Getter

end ItemStore
