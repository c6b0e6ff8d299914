/-
No call asks for more than a bucket may hold.

A bucket starts with at least one key and with no more than the settings allow.  What the
store leaves may be any keys of any tables, but a reply that leaves more of them than its
round asked for ends the fetch before there is a further call, and a failure repeats its
request as it is.  So what a bucket asks for never grows, whatever the store does
(`keyCount_le_of_receive`), and that is a `Rule` of one bucket (`sizeRule`).

A call is sent only by a bucket that is not done (`calls_of_goes`), so every request that
goes out is one of which the rule speaks, and has a key (`Rule.sent`).
-/
import ItemStore.Proofs.Batch.Buckets
import ItemStore.Proofs.Batch.Course

namespace ItemStore

/-- A reply does not make a bucket ask for more. -/
theorem Pager.keyCount_le_of_receive {policy : RetryPolicy} {table : String} {p p' : Pager}
    {reply : Except Error BatchResponse} {wait : Nat}
    (h : p.receive policy table reply = .ok (p', wait)) :
    p'.request.keyCount ≤ p.request.keyCount := by
  rcases receive_cases h with ⟨response, -, hle, -, rfl⟩ | ⟨e, -, -, rfl⟩
  · exact hle
  · exact Nat.le_refl _

/-- What one session sent after another are requests with a property. -/
def Session.Sent {σ : Type} (before after : Session σ) (P : BatchRequest → Prop) : Prop :=
  ∃ sent, after.calls = before.calls ++ sent ∧ ∀ c ∈ sent, P c.2

namespace Fetch

variable {σ M : Type} {plan : FetchPlan M} {t : Transport σ}

/-! ### The calls of a step -/

/-- A step sends nothing, or the request of a bucket that is not done. -/
theorem calls_of_goes {s s' : Fetch σ M} {f : Flight} (h : Goes plan t s f s') :
    s'.session.calls = s.session.calls ∨
      (f.calling = false ∧ f.pager.isDone = false ∧
        ∃ time, s'.session.calls = s.session.calls ++ [(time, f.pager.request)]) := by
  cases h with
  | sends due idle left session flights waiting finished failure =>
      refine Or.inr ⟨idle, left, max s.session.clock f.due, ?_⟩
      rw [session]
      rfl
  | takes pager wait due calling received session flights waiting finished failure =>
      refine Or.inl ?_
      rw [session]
      rfl
  | fails e calling received => exact Or.inl rfl
  | finishes models idle done built => exact Or.inl rfl
  | breaks e idle done built => exact Or.inl rfl

/-- **What a rule says of every bucket that is not done holds of every request sent**, in
every order of steps. -/
theorem Rule.sent {r : Rule plan t} {P : BatchRequest → Prop}
    (hP : ∀ {i p}, r.flight i p false → p.isDone = false → P p.request) {s₀ s : Fetch σ M}
    {n : Nat} (hnodup : s₀.indices.Nodup) (h₀ : r.Holds s₀) (h : Reaches plan t s₀ n s) :
    s₀.session.Sent s.session P := by
  induction h with
  | refl => exact ⟨[], (List.append_nil _).symm, by simp⟩
  | @go n s f before going mem ih =>
      obtain ⟨sent, hcalls, hsent⟩ := ih
      have hbefore := reaches_indices hnodup before going
      have hflights := nodup_flights (hbefore.nodup_iff.mpr hnodup)
      have hf := (Rule.holds_of_reaches hnodup h₀ before).flights f mem
      rcases calls_of_goes (step_goes hflights mem) with hsame | ⟨hidle, hleft, time, hnew⟩
      · exact ⟨sent, hsame.trans hcalls, hsent⟩
      · refine ⟨sent ++ [(time, f.pager.request)], ?_, ?_⟩
        · rw [hnew, hcalls, List.append_assoc]
        · rw [hidle] at hf
          intro c hc
          rcases List.mem_append.mp hc with hold | hlast
          · exact hsent c hold
          · rw [List.mem_singleton.mp hlast]
            exact hP hf hleft

/-! ### The size of a bucket -/

/-- No bucket asks for more keys than this. -/
def sizeRule (plan : FetchPlan M) (t : Transport σ) (size : Nat) : Rule plan t where
  store _ := True
  flight _ p _ := p.request.keyCount ≤ size
  result _ _ := True
  error _ := True
  sends _ hp _ := ⟨trivial, hp⟩
  takes _ hp hreceive := ⟨trivial, (Pager.keyCount_le_of_receive hreceive).trans hp⟩
  fails _ _ _ := ⟨trivial, trivial⟩
  finishes _ _ _ := trivial
  breaks _ _ _ := trivial

/-- **Whatever the store replies, every request that goes out has a key and no more keys than
the largest request at the start.** -/
theorem reaches_sent {size : Nat} {session : Session σ} {requests : List BatchRequest}
    (hsize : ∀ r ∈ requests, r.keyCount ≤ size) {n : Nat} {s : Fetch σ M}
    (h : Reaches plan t (start plan session requests) n s) :
    session.Sent s.session fun r => 1 ≤ r.keyCount ∧ r.keyCount ≤ size := by
  refine Rule.sent (r := sizeRule plan t size) ?_
    ((start_indices plan session requests).nodup_iff.mpr List.nodup_range)
    (start_holds trivial fun i hi => hsize _ (List.getElem_mem hi)) h
  intro i p hp hleft
  have hsome : p.request.keyCount ≠ 0 := by simpa [Pager.isDone, BatchRequest.isEmpty] using hleft
  exact ⟨Nat.one_le_iff_ne_zero.mpr hsome, hp⟩

end Fetch

/-! ### The settings of a getter -/

theorem BatchConfig.validate_eq_ok_iff {c : BatchConfig} :
    c.validate = .ok () ↔ (1 ≤ c.maxBatchSize ∧ c.maxBatchSize ≤ maxKeysPerCall) ∧
      c.maxConcurrency ≠ some 0 ∧ ¬ c.retry.multiplier < 1.0 := by
  unfold validate fault?
  by_cases hsize : 1 ≤ c.maxBatchSize ∧ c.maxBatchSize ≤ maxKeysPerCall
  · have hfits : ¬ (c.maxBatchSize = 0 || maxKeysPerCall < c.maxBatchSize) = true := by
      simp only [Bool.or_eq_true, decide_eq_true_eq]
      omega
    rw [if_neg hfits]
    by_cases hnone : c.maxConcurrency = some 0
    · simp [hnone]
    · by_cases hshrinks : c.retry.multiplier < 1.0
      · simp [hnone, hshrinks]
      · simp [hsize, hnone, hshrinks]
  · have hfault : (c.maxBatchSize = 0 || maxKeysPerCall < c.maxBatchSize) = true := by
      simp only [Bool.or_eq_true, decide_eq_true_eq]
      omega
    rw [if_pos hfault]
    simp [hsize]

namespace Getter

variable {σ M : Type}

/-- How a getter comes about: with the settings that every getter has at first, or with
others that were accepted. -/
inductive Built : Getter M → Prop
  | new (table : Table M) (serializer : Serializer) : Built { table, serializer }
  | withConfig {g g' : Getter M} {config : BatchConfig} (before : Built g)
      (accepted : g.withConfig config = .ok g') : Built g'

/-- A getter has settings that can be used. -/
theorem Built.validate {g : Getter M} (h : g.Built) : g.config.validate = .ok () := by
  cases h with
  | new table serializer =>
      show ({} : BatchConfig).validate = .ok ()
      decide +kernel
  | @withConfig g₀ _ config before accepted =>
      unfold Getter.withConfig at accepted
      cases hvalid : config.validate with
      | error e =>
          rw [hvalid] at accepted
          cases accepted
      | ok u =>
          rw [hvalid] at accepted
          cases accepted
          exact hvalid

theorem Built.maxBatchSize {g : Getter M} (h : g.Built) :
    1 ≤ g.config.maxBatchSize ∧ g.config.maxBatchSize ≤ BatchConfig.maxKeysPerCall :=
  (BatchConfig.validate_eq_ok_iff.mp h.validate).1

/-- Every bucket begins with no more keys than the settings allow. -/
theorem keyCount_le_of_mem_requests {g : Getter M} (hsize : 0 < g.config.maxBatchSize)
    {keys : List NativeKey} {options : ReadOptions} {r : BatchRequest}
    (hr : r ∈ g.requests keys options) : r.keyCount ≤ g.config.maxBatchSize := by
  obtain ⟨bucket, hbucket, rfl⟩ := List.mem_map.mp hr
  rw [BatchRequest.keyCount_ofTable]
  exact length_le_of_mem_buckets hsize hbucket

/-- **Every call asks for at least one key and for no more than the settings allow, which is
never more than a hundred.**  The transport may be any, and so may the order of the steps, of
which getting takes one. -/
theorem Built.sent_within_limit {g : Getter M} (built : g.Built) (t : Transport σ)
    (session : Session σ) (records : List KeyRecord) (options : ReadOptions) :
    let within (r : BatchRequest) : Prop := 1 ≤ r.keyCount ∧ r.keyCount ≤ g.config.maxBatchSize
    g.config.maxBatchSize ≤ 100 ∧
      (∀ fuel, session.Sent (g.getWithin fuel t session records options).1 within) ∧
      ∀ keys, g.buildKeys records = .ok keys → ∀ n s,
        Fetch.Reaches (g.planFor keys options) t (g.startFor session keys options) n s →
        session.Sent s.session within := by
  intro within
  obtain ⟨hpos, hlimit⟩ := built.maxBatchSize
  have hevery : ∀ keys n s,
      Fetch.Reaches (g.planFor keys options) t (g.startFor session keys options) n s →
      session.Sent s.session within := fun keys n s h =>
    Fetch.reaches_sent (fun r hr => keyCount_le_of_mem_requests hpos hr) h
  refine ⟨hlimit, fun fuel => ?_, fun keys _ => hevery keys⟩
  cases hkeys : g.buildKeys records with
  | error e =>
      have hget : g.getWithin fuel t session records options = (session, some (.error e)) := by
        rw [getWithin, hkeys]
      rw [hget]
      exact ⟨[], (List.append_nil _).symm, by simp⟩
  | ok keys =>
      obtain ⟨n, s, hreach, -, hget⟩ := getWithin_reaches hkeys fuel t session options
      rw [hget]
      exact hevery keys n s hreach

/-- Buckets of two, and a store that first leaves a key of each of two other tables and then
three keys. -/
theorem sent_within_limit_foreign_keys :
    let key (n : Nat) : NativeKey := Entries.insert ∅ "id" (.leaf (.text s!"user{n}"))
    let schema := Schema.ofHashKey "id" .string
    let config : BatchConfig := { maxBatchSize := 2 }
    let g : Getter Item := { table := .plain "users" schema, config }
    let left (tables : List (String × TableRequest)) : Except Error BatchResponse :=
      .ok { unprocessed := some (.ofList tables) }
    let session : Session (List (Except Error BatchResponse)) := { store := [
      left [("orders", { keys := [key 1] }), ("parts", { keys := [key 2] })],
      left [("orders", { keys := [key 1, key 2, key 3] })]] }
    let records : List KeyRecord := [{ hash := .text "a" }, { hash := .text "b" }]
    let after := (g.getWithin 9 .prepared session records ∅).1
    g.Built ∧ after.calls.map (·.2.keyCount) = [2, 2] ∧
      session.Sent after fun r => 1 ≤ r.keyCount ∧ r.keyCount ≤ 2 := by
  intro key schema config g left session records after
  have hvalid : ({ maxBatchSize := 2 } : BatchConfig).validate = .ok () := by decide +kernel
  have accepted : ({ table := .plain "users" schema } : Getter Item).withConfig config = .ok g := by
    rw [withConfig, hvalid]
  have built : g.Built := .withConfig (.new _ _) accepted
  refine ⟨built, by decide +kernel, (built.sent_within_limit .prepared session records ∅).2.1 9⟩

end Getter

end ItemStore
