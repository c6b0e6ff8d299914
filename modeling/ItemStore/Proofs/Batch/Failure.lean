/-
The first bucket that fails ends the fetch, with its error.

A bucket comes to an error in one of five ways (`Getter.Breaks`), and which replies it took
decides whether and how.  As long as a fetch goes on no bucket is seen to come to an error; one
that has an error before it has just its last step left, and this step ends the fetch
(`step_of_breaks`).  So the trace of a fetch that has failed ends with the first error that is
seen in it, and this is the error of the fetch (`last_of_failure`).

After that there is nothing: the buckets in flight take no reply and send no call, and those
that wait are not started, however much longer the fetch is run.
-/
import ItemStore.Proofs.Batch.Trace
import ItemStore.Proofs.Retry

namespace ItemStore

namespace Getter

variable {σ M : Type}

/-! ### The ways to an error -/

theorem buildModel_eq_error {g : Getter M} {native : NativeItem} {e : Error} :
    g.buildModel native = .error e ↔ g.serializer.decodeItem native = .error e ∨
      ∃ item e', g.serializer.decodeItem native = .ok item ∧ g.table.build item = .error e' ∧
        .within ("building item for table " ++ g.table.name) e' = e := by
  unfold buildModel
  rw [bind_eq_error]
  refine or_congr_right (exists_congr fun item => ?_)
  cases g.table.build item <;> simp

/-- A bucket by itself comes to an error: its request, the replies it took, and the error. -/
inductive Breaks (g : Getter M) (request : BatchRequest) : List Exchange → Error → Prop
  /-- A failure that is not worth another try. -/
  | terminal {log : List Exchange} {p : Pager} {e : Error}
      (way : Pager.Path g.config.retry g.table.name { request } log p) (asking : p.isDone = false)
      (fatal : e.isRetryable = false) : Breaks g request (log ++ [⟨p.request, .error e⟩]) e
  /-- A failure when the retries of the round are used up. -/
  | exhausted {log : List Exchange} {p : Pager} {e : Error}
      (way : Pager.Path g.config.retry g.table.name { request } log p) (asking : p.isDone = false)
      (retryable : e.isRetryable = true) (spent : g.config.retry.allows p.retries = false) :
      Breaks g request (log ++ [⟨p.request, .error e⟩]) (.exhausted (p.retries + 1) e)
  /-- A reply that leaves more keys than the round asked for. -/
  | grown {log : List Exchange} {p : Pager} {response : BatchResponse} {next : BatchRequest}
      (way : Pager.Path g.config.retry g.table.name { request } log p) (asking : p.isDone = false)
      (left : response.next? = some next) (more : p.request.keyCount < next.keyCount) :
      Breaks g request (log ++ [⟨p.request, .ok response⟩])
        (.grown next.keyCount p.request.keyCount)
  /-- Nothing is left to ask for, but an item can not be read. -/
  | unread {log : List Exchange} {p : Pager} {before after : List NativeItem} {raw : NativeItem}
      {e : Error} (way : Pager.Path g.config.retry g.table.name { request } log p)
      (done : p.isDone = true) (items : p.items = before ++ raw :: after)
      (fine : ∀ x ∈ before, ∃ m, g.buildModel x = .ok m)
      (failed : g.serializer.decodeItem raw = .error e) : Breaks g request log e
  /-- Nothing is left to ask for, but the table makes nothing of an item. -/
  | unbuilt {log : List Exchange} {p : Pager} {before after : List NativeItem}
      {raw : NativeItem} {item : Item} {e : Error}
      (way : Pager.Path g.config.retry g.table.name { request } log p)
      (done : p.isDone = true) (items : p.items = before ++ raw :: after)
      (fine : ∀ x ∈ before, ∃ m, g.buildModel x = .ok m)
      (decoded : g.serializer.decodeItem raw = .ok item)
      (failed : g.table.build item = .error e) :
      Breaks g request log (.within ("building item for table " ++ g.table.name) e)

variable {g : Getter M} {request : BatchRequest} {log : List Exchange} {p : Pager} {e : Error}

/-- Either the last reply ends the matter, or the items that were got can not be made into
results. -/
theorem breaks_iff : g.Breaks request log e ↔
    (∃ before p reply, log = before ++ [⟨p.request, reply⟩] ∧
      Pager.Path g.config.retry g.table.name { request } before p ∧ p.isDone = false ∧
      p.receive g.config.retry g.table.name reply = .error e) ∨
    ∃ p, Pager.Path g.config.retry g.table.name { request } log p ∧ p.isDone = true ∧
      p.items.mapM g.buildModel = .error e := by
  constructor
  · intro h
    cases h with
    | terminal way asking fatal =>
        refine Or.inl ⟨_, _, _, rfl, way, asking, Pager.receive_eq_error.mpr (Or.inl ⟨e, rfl, ?_⟩)⟩
        exact RetryPolicy.afterFailure_eq_error.mpr (Or.inl ⟨fatal, rfl⟩)
    | @exhausted _ _ e way asking retryable spent =>
        refine Or.inl ⟨_, _, _, rfl, way, asking, Pager.receive_eq_error.mpr (Or.inl ⟨e, rfl, ?_⟩)⟩
        exact RetryPolicy.afterFailure_eq_error.mpr (Or.inr ⟨retryable, spent, rfl⟩)
    | grown way asking left more =>
        exact Or.inl ⟨_, _, _, rfl, way, asking,
          Pager.receive_eq_error.mpr (Or.inr ⟨_, _, rfl, left, more, rfl⟩)⟩
    | unread way done items fine failed =>
        exact Or.inr ⟨_, way, done, mapM_eq_error_iff.mpr
          ⟨_, _, _, items, fine, buildModel_eq_error.mpr (Or.inl failed)⟩⟩
    | unbuilt way done items fine decoded failed =>
        exact Or.inr ⟨_, way, done, mapM_eq_error_iff.mpr
          ⟨_, _, _, items, fine, buildModel_eq_error.mpr (Or.inr ⟨_, _, decoded, failed, rfl⟩)⟩⟩
  · rintro (⟨before, p, reply, rfl, way, asking, received⟩ | ⟨p, way, done, built⟩)
    · rcases Pager.receive_eq_error.mp received with ⟨e', rfl, hafter⟩ |
        ⟨response, next, rfl, left, more, rfl⟩
      · rcases RetryPolicy.afterFailure_eq_error.mp hafter with ⟨fatal, rfl⟩ |
          ⟨retryable, spent, rfl⟩
        · exact .terminal way asking fatal
        · exact .exhausted way asking retryable spent
      · exact .grown way asking left more
    · obtain ⟨before, raw, after, items, fine, hraw⟩ := mapM_eq_error_iff.mp built
      rcases buildModel_eq_error.mp hraw with failed | ⟨item, e', decoded, failed, rfl⟩
      · exact .unread way done items fine failed
      · exact .unbuilt way done items fine decoded failed

/-- A bucket that is on its way has met no reply that ends the matter.  If it has come to an
error all the same, it is done, and its items can not be made into results. -/
theorem Breaks.build_eq_error (h : g.Breaks request log e)
    (way : Pager.Path g.config.retry g.table.name { request } log p) :
    p.isDone = true ∧ p.items.mapM g.buildModel = .error e := by
  rcases breaks_iff.mp h with ⟨before, q, reply, rfl, way', -, hreceived⟩ | ⟨q, way', done, built⟩
  · obtain ⟨q', wait, hq', -, -, received⟩ := way.last
    cases hq'.unique way'
    cases hreceived.symm.trans received
  · cases way'.unique way
    exact ⟨done, built⟩

end Getter

namespace Fetch

variable {σ M : Type} {plan : FetchPlan M} {t : Transport σ} {s s' : Fetch σ M}

/-! ### Nothing comes after a failure -/

theorem result?_eq_error_iff {e : Error} :
    s.result? = some (.error e) ↔ s.failure = some e := by
  unfold result?
  cases hfailure : s.failure with
  | some e' => simp
  | none => simp

theorem eq_of_reaches_of_failure {e : Error} {n : Nat} (failed : s.failure = some e)
    (h : Reaches plan t s n s') : s' = s := by
  induction h with
  | refl => rfl
  | go _ going _ ih =>
      rw [ih, failed] at going
      cases going

/-- A run that has failed is not changed by more fuel. -/
theorem run_of_failure {e : Error} (more : Nat) :
    ∀ {fuel : Nat} {s : Fetch σ M}, (s.run plan t fuel).failure = some e →
      s.run plan t (fuel + more) = s.run plan t fuel := by
  intro fuel
  induction fuel with
  | zero =>
      intro s failed
      rw [run] at failed
      cases more with
      | zero => rfl
      | succ more => rw [Nat.zero_add, run, run, if_pos (by simp [failed])]
  | succ fuel ih =>
      intro s failed
      rw [Nat.succ_add, run, run]
      rw [run] at failed
      by_cases hfailed : s.failure.isSome = true
      · rw [if_pos hfailed, if_pos hfailed]
      · rw [if_neg hfailed] at failed
        rw [if_neg hfailed, if_neg hfailed]
        cases hnext : earliest s.flights with
        | none => rfl
        | some f =>
            rw [hnext] at failed
            exact ih failed

end Fetch

namespace Getter

variable {σ M : Type} {g : Getter M} {t : Transport σ} {session : Session σ}
  {records : List KeyRecord} {keys : List NativeKey} {options : ReadOptions}

/-- **A bucket that comes to an error ends the fetch.**  As long as the fetch goes on, the
bucket has its last step before it, and this step fails with the error. -/
theorem step_of_breaks {log : List (Nat × Exchange)} {s : Fetch σ M}
    (h : Fetch.Course (g.planFor keys options) t (g.startFor session keys options) log s)
    (going : s.failure = none) {i : Nat} {request : BatchRequest} {e : Error}
    (hrequest : (g.requests keys options)[i]? = some request)
    (hbreaks : g.Breaks request (Fetch.own i log) e) :
    ∃ f ∈ s.flights, f.index = i ∧ (s.step (g.planFor keys options) t f).failure = some e := by
  have hrecorded := h.recorded going
  have hi : i ∈ s.indices :=
    (h.indices_perm going).mem_iff.mpr
      (List.mem_range.mpr (List.getElem?_eq_some_iff.mp hrequest).1)
  rw [Fetch.indices, List.mem_append, List.mem_append] at hi
  rcases hi with (hwaits | hflies) | hends
  · -- A bucket that waits has no items yet.
    obtain ⟨w, hw, rfl⟩ := List.mem_map.mp hwaits
    obtain ⟨hrequest', hown⟩ := hrecorded.waiting w hw
    rw [hown] at hbreaks
    cases (hbreaks.build_eq_error .start).2
  · obtain ⟨f, hf, rfl⟩ := List.mem_map.mp hflies
    obtain ⟨request', hrequest', hpath, hcalling⟩ := hrecorded.flights f hf
    cases hrequest.symm.trans hrequest'
    obtain ⟨hdone, hbuild⟩ := hbreaks.build_eq_error hpath
    have hidle : f.calling = false := by
      rw [← Bool.not_eq_true]
      intro hcall
      rw [hcalling hcall] at hdone
      cases hdone
    refine ⟨f, hf, rfl, ?_⟩
    have hbuilt : (g.planFor keys options).build f.pager.items = .error e := hbuild
    simp [Fetch.step, hidle, hdone, hbuilt]
  · -- A bucket that is done had results.
    obtain ⟨d, hd, rfl⟩ := List.mem_map.mp hends
    obtain ⟨request', p, hrequest', hpath, -, hbuilt⟩ := hrecorded.finished d hd
    cases hrequest.symm.trans hrequest'
    cases hbuilt.symm.trans (hbreaks.build_eq_error hpath).2

/-- **A fetch that fails does so where the first bucket is seen to come to an error**, with the
error that this bucket comes to by itself, and nothing is seen after it. -/
theorem last_of_failure {tr : List (Nat × Fetch.Event M)} {s : Fetch σ M} {e : Error}
    (h : Fetch.Trace (g.planFor keys options) t (g.startFor session keys options) tr s)
    (failed : s.failure = some e) :
    ∃ before i request, tr = before ++ [(i, .ends (.error e))] ∧
      (∀ d ∈ Fetch.ended before, ∃ models, d.2 = .ok models) ∧
      (g.requests keys options)[i]? = some request ∧
      g.Breaks request (Fetch.own i (Fetch.answered tr)) e := by
  cases h with
  | start => cases failed
  | @go tr s f before going mem =>
      have hflights := Fetch.nodup_flights (before.course.nodup_indices going)
      obtain ⟨first, hseen, hfirst, hwhy⟩ :=
        Fetch.seen_of_failure (Fetch.step_goes hflights mem) going failed
      obtain ⟨request, hrequest, hpath, hasking⟩ := (before.course.recorded going).flights f mem
      refine ⟨tr ++ first, f.index, request, ?_, ?_, hrequest, ?_⟩
      · rw [hseen, List.append_assoc]
      · rw [Fetch.ended_append, before.ended_eq going, hfirst, List.append_nil]
        exact fun d => Fetch.exists_of_mem_results
      · rw [breaks_iff, Fetch.answered_append, Fetch.answered_seen, Fetch.own_append, Fetch.taken]
        rcases hwhy with ⟨hcalling, hreceived⟩ | ⟨hidle, hdone, hbuilt⟩
        · rw [if_pos hcalling, Fetch.own_self]
          exact Or.inl ⟨_, _, _, rfl, hpath, hasking hcalling, hreceived⟩
        · rw [if_neg (by simp [hidle]), Fetch.own_nil, List.append_nil]
          exact Or.inr ⟨_, hpath, hdone, hbuilt⟩

/--
**A bucket that fails ends the fetch, and the first to do so decides the error.**

Getting takes one order of the steps of the fetch; let it be any.  Where a bucket is seen to
come to an error, it is the first of which this is seen, it came to the error by the replies it
took itself, and the error is the result of the fetch, without any items.  Nothing is seen after
it, so no call is sent, whether from a bucket in flight or from one that waits: no further step
can be taken, and more fuel changes nothing.  Conversely a fetch has no error but where one is
seen, and as long as it goes on a bucket with an error before it has just one step left, which
fails with this error.
-/
theorem fails_with_first (g : Getter M) (t : Transport σ) (session : Session σ)
    (records : List KeyRecord) (keys : List NativeKey) (options : ReadOptions)
    (hkeys : g.buildKeys records = .ok keys) :
    let plan := g.planFor keys options
    let requests := g.requests keys options
    let start := g.startFor session keys options
    (∀ fuel, ∃ tr s, Fetch.Trace plan t start tr s ∧
      g.getWithin fuel t session records options = (s.session, s.result?) ∧
      (s.failure ≠ none → ∀ more,
        g.getWithin (fuel + more) t session records options = (s.session, s.result?))) ∧
    ∀ tr s, Fetch.Trace plan t start tr s →
      s.session.calls.map (·.2) = session.calls.map (·.2) ++ (Fetch.called tr).map (·.2) ∧
      (∀ before i e after, tr = before ++ (i, .ends (.error e)) :: after →
        after = [] ∧ s.result? = some (.error e) ∧
        (∀ d ∈ Fetch.ended before, ∃ models, d.2 = .ok models) ∧
        (∃ request, requests[i]? = some request ∧
          g.Breaks request (Fetch.own i (Fetch.answered tr)) e) ∧
        ∀ n s', Fetch.Reaches plan t s n s' → s' = s) ∧
      (∀ e, s.result? = some (.error e) → ∃ before i, tr = before ++ [(i, .ends (.error e))]) ∧
      (s.failure = none → ∀ i request e, requests[i]? = some request →
        g.Breaks request (Fetch.own i (Fetch.answered tr)) e →
          ∃ f ∈ s.flights, f.index = i ∧ (s.step plan t f).failure = some e) := by
  intro plan requests start
  refine ⟨fun fuel => ?_, fun tr s h => ⟨h.calls, ?_, ?_, ?_⟩⟩
  · have hget : ∀ fuel, g.getWithin fuel t session records options =
        ((start.run plan t fuel).session, (start.run plan t fuel).result?) := by
      intro fuel
      rw [getWithin, hkeys]
      rfl
    obtain ⟨n, hreach, -⟩ := Fetch.run_reaches plan t fuel start
    obtain ⟨tr, htrace⟩ := hreach.trace
    refine ⟨tr, _, htrace, hget fuel, fun hfailed more => ?_⟩
    obtain ⟨e, failed⟩ := Option.ne_none_iff_exists'.mp hfailed
    rw [hget, Fetch.run_of_failure more failed]
  · intro before i e after htr
    cases hfailure : s.failure with
    | none =>
        -- What is seen of a fetch that goes on is no error.
        have hmem : (i, .error e) ∈ Fetch.ended tr := by
          rw [htr]
          exact Fetch.mem_ended (by simp)
        rw [h.ended_eq hfailure] at hmem
        obtain ⟨models, hmodels⟩ := Fetch.exists_of_mem_results hmem
        cases hmodels
    | some e' =>
        obtain ⟨first, j, request, hlast, hwell, hrequest, hbreaks⟩ := last_of_failure h hfailure
        obtain ⟨rfl, rfl, rfl, rfl⟩ := Fetch.first_error hwell (hlast.symm.trans htr)
        exact ⟨rfl, Fetch.result?_eq_error_iff.mpr hfailure, hwell, ⟨request, hrequest, hbreaks⟩,
          fun n s' => Fetch.eq_of_reaches_of_failure hfailure⟩
  · intro e hresult
    obtain ⟨before, i, -, hlast, -⟩ := last_of_failure h (Fetch.result?_eq_error_iff.mp hresult)
    exact ⟨before, i, hlast⟩
  · intro going i request e hrequest hbreaks
    exact step_of_breaks h.course going hrequest hbreaks

/-- Three buckets of one key, two of them in flight at a time: the first is answered, the second
is refused, and the third never calls. -/
theorem fails_with_first_of_three :
    let key (id : String) : NativeKey := Entries.insert ∅ "id" (.leaf (.text id))
    let denied : Error := .transport "access denied" false
    let g : Getter Item := {
      table := .plain "users" (Schema.ofHashKey "id" .string)
      config := { maxBatchSize := 1, maxConcurrency := some 2 } }
    let session : Session (List (Except Error BatchResponse)) := {
      store := [.ok ∅, .error denied, .ok ∅] }
    let records : List KeyRecord :=
      [{ hash := .text "a" }, { hash := .text "b" }, { hash := .text "c" }]
    let keys := [key "a", key "b", key "c"]
    let after := (g.getWithin 9 .prepared session records ∅).1
    g.buildKeys records = .ok keys ∧ after.calls.length = 2 ∧
      (∀ more, g.getWithin (9 + more) .prepared session records ∅ =
        (after, some (.error denied))) ∧
      ∃ before i, (∀ d ∈ Fetch.ended before, ∃ models : List Item, d.2 = .ok models) ∧
        ∃ s, s.session = after ∧ Fetch.Trace (g.planFor keys ∅) .prepared
          (g.startFor session keys ∅) (before ++ [(i, .ends (.error denied))]) s := by
  intro key denied g session records keys after
  have hkeys : g.buildKeys records = .ok keys := by decide +kernel
  have hcalls : after.calls.length = 2 := by decide +kernel
  have hresult : (g.getWithin 9 .prepared session records ∅).2 = some (.error denied) := by
    decide +kernel
  obtain ⟨hruns, hevery⟩ := fails_with_first g .prepared session records keys ∅ hkeys
  obtain ⟨tr, s, htrace, hget, hmore⟩ := hruns 9
  have hended : s.result? = some (.error denied) := by rwa [hget] at hresult
  have hafter : s.session = after := (congrArg Prod.fst hget).symm
  obtain ⟨-, hfirst, hlast, -⟩ := hevery tr s htrace
  obtain ⟨before, i, rfl⟩ := hlast denied hended
  obtain ⟨-, -, hwell, -⟩ := hfirst before i denied [] rfl
  have failed : s.failure ≠ none := by
    rw [Fetch.result?_eq_error_iff.mp hended]
    exact Option.some_ne_none _
  refine ⟨hkeys, hcalls, fun more => ?_, before, i, hwell, s, hafter, htrace⟩
  rw [hmore failed more, hafter, hended]

end Getter

end ItemStore
