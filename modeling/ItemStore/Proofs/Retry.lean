/-
Calling until it succeeds.

A run of a policy meets failures that are worth another try, one after another, until an
outcome settles the matter or the limit of retries is reached.  `Retried` goes failure by
failure the way a run goes, with the count of retries that the run keeps.  The count is a word,
so it begins again at zero after 2 ^ 32 failures, and it is the only thing that a run remembers
of them (`retried_iff`); that a run is where the relation says is `Retried.run_eq`.

With the failures at the front of the outcomes the whole run is known: it makes one call more
than it met failures, or one more than the limit, each after the wait that the policy sets
between it and the one before.
-/
import Mathlib.Algebra.Group.Nat.Defs
import Mathlib.Data.List.Induction
import ItemStore.Retry

namespace ItemStore.RetryPolicy

variable {α : Type} {p : RetryPolicy}

/-! ### One failure -/

theorem afterFailure_eq_ok {retries : UInt32} {e : Error} {wait : Nat} :
    p.afterFailure retries e = .ok wait ↔
      e.isRetryable = true ∧ p.allows retries = true ∧ (p.backoff retries).toNat = wait := by
  unfold afterFailure
  by_cases hretryable : e.isRetryable = true
  · by_cases hallowed : p.allows retries = true
    · simp [hretryable, hallowed]
    · simp [hretryable, hallowed]
  · simp [hretryable]

theorem afterFailure_eq_error {retries : UInt32} {e e' : Error} :
    p.afterFailure retries e = .error e' ↔
      (e.isRetryable = false ∧ e = e') ∨
        (e.isRetryable = true ∧ p.allows retries = false ∧ .exhausted (retries + 1) e = e') := by
  unfold afterFailure
  by_cases hretryable : e.isRetryable = true
  · by_cases hallowed : p.allows retries = true
    · simp [hretryable, hallowed]
    · simp [hretryable, hallowed]
  · simp [hretryable]

/-- What may follow so many retries, counted without end. -/
theorem allows_ofNat {n : Nat} (h : ∀ limit, p.maxRetries = some limit → n ≤ limit.toNat) :
    p.allows (.ofNat n) = true ↔ ∀ limit, p.maxRetries = some limit → n < limit.toNat := by
  unfold allows
  cases hlimit : p.maxRetries with
  | none => simp
  | some limit =>
      have hsmall : n < 2 ^ 32 := Nat.lt_of_le_of_lt (h limit hlimit) limit.toNat_lt
      have hcount : (UInt32.ofNat n).toNat = n := by
        rw [UInt32.toNat_ofNat', Nat.mod_eq_of_lt hsmall]
      simp only [decide_eq_true_eq, UInt32.lt_iff_toNat_lt, hcount, Option.some.injEq,
        forall_eq']

/-! ### Failures that are followed by a retry -/

/-- A run goes on after each of these failures, and then counts so many retries. -/
inductive Retried (p : RetryPolicy) : List Error → UInt32 → Prop
  | start : Retried p [] 0
  | again {failures : List Error} {retries : UInt32} {e : Error} {wait : Nat}
      (before : Retried p failures retries) (after : p.afterFailure retries e = .ok wait) :
      Retried p (failures ++ [e]) (retries + 1)

/-- **A run goes on after failures that are worth another try, as long as there are no more of
them than the limit, and counts them in a word.** -/
theorem retried_iff {failures : List Error} {retries : UInt32} :
    p.Retried failures retries ↔ (∀ e ∈ failures, e.isRetryable = true) ∧
      (∀ limit, p.maxRetries = some limit → failures.length ≤ limit.toNat) ∧
      retries = .ofNat failures.length := by
  constructor
  · intro h
    induction h with
    | start => exact ⟨by simp, by simp, rfl⟩
    | @again failures retries e wait before after ih =>
        obtain ⟨hall, hlimit, rfl⟩ := ih
        obtain ⟨hretryable, hallows, -⟩ := afterFailure_eq_ok.mp after
        refine ⟨?_, ?_, ?_⟩
        · simpa [or_imp, forall_and] using ⟨hall, hretryable⟩
        · intro limit h
          rw [List.length_append, List.length_singleton]
          exact (allows_ofNat hlimit).mp hallows limit h
        · simp [UInt32.ofNat_add]
  · rintro ⟨hall, hlimit, rfl⟩
    induction failures using List.reverseRecOn with
    | nil => exact .start
    | append_singleton failures e ih =>
        have hbelow : ∀ limit, p.maxRetries = some limit → failures.length < limit.toNat := by
          simpa [Nat.succ_le_iff] using hlimit
        have hbefore := ih (fun e he => hall e (List.mem_append_left _ he))
          fun limit h => Nat.le_of_lt (hbelow limit h)
        have hallows := (allows_ofNat fun limit h => Nat.le_of_lt (hbelow limit h)).mpr hbelow
        have hagain := hbefore.again (afterFailure_eq_ok.mpr ⟨hall e (by simp), hallows, rfl⟩)
        rwa [List.length_append, List.length_singleton, UInt32.ofNat_add]

/-- The times of the calls of a run: the first at the start, and each later one when the policy
has waited since the one before it. -/
def timeOf (p : RetryPolicy) (start : Nat) : Nat → Nat
  | 0 => start
  | n + 1 => p.timeOf start n + waitTime (p.backoff (.ofNat n)).toNat

/-- The run after failures that are followed by a retry. -/
theorem Retried.run_eq {failures : List Error} {retries : UInt32} (h : p.Retried failures retries)
    (idle : α) (start : Nat) : ∀ rest : List (Except Error α),
      p.run idle (failures.map .error ++ rest) 0 start =
        let later := p.run idle rest retries (p.timeOf start failures.length)
        { later with
          calls := (List.range failures.length).map (p.timeOf start) ++ later.calls } := by
  induction h with
  | start => intro rest; rfl
  | @again failures retries e wait before after ih =>
      intro rest
      obtain ⟨-, -, hcount⟩ := retried_iff.mp before
      obtain ⟨-, -, hwait⟩ := afterFailure_eq_ok.mp after
      have htime : p.timeOf start failures.length + waitTime wait =
          p.timeOf start (failures.length + 1) := by
        rw [timeOf, ← hcount, hwait]
      rw [List.map_append, List.append_assoc, ih]
      simp [run, after, htime, List.range_succ]

/-! ### The call that ends a run -/

/-- The outcome is a failure that is worth another try. -/
def isTransient : Except Error α → Bool
  | .ok _ => false
  | .error e => e.isRetryable

/-- The outcome of a call, the calls being counted from zero. -/
def outcome (idle : α) (outcomes : List (Except Error α)) (n : Nat) : Except Error α :=
  outcomes[n]?.getD (.ok idle)

theorem run_of_settled {idle : α} {outcomes : List (Except Error α)}
    (settled : isTransient (outcome idle outcomes 0) = false) (retries : UInt32) (clock : Nat) :
    p.run idle outcomes retries clock =
      ⟨outcome idle outcomes 0, [clock], clock, outcomes.drop 1⟩ := by
  cases outcomes with
  | nil => rfl
  | cons o rest =>
      cases o with
      | ok a => rfl
      | error e =>
          have hfatal : p.afterFailure retries e = .error e :=
            afterFailure_eq_error.mpr (Or.inl ⟨settled, rfl⟩)
          simp [run, hfatal, outcome]

theorem run_of_spent {idle : α} {outcomes : List (Except Error α)} {e : Error}
    (failed : outcome idle outcomes 0 = .error e) (retryable : e.isRetryable = true)
    {retries : UInt32} (spent : p.allows retries = false) (clock : Nat) :
    p.run idle outcomes retries clock =
      ⟨.error (.exhausted (retries + 1) e), [clock], clock, outcomes.drop 1⟩ := by
  cases outcomes with
  | nil => cases failed
  | cons o rest =>
      obtain rfl : o = .error e := failed
      have hspent := afterFailure_eq_error.mpr (Or.inr ⟨retryable, spent, rfl⟩)
      simp [run, hspent]

/-- Outcomes that begin with failures worth another try. -/
theorem exists_failures {idle : α} {outcomes : List (Except Error α)} {n : Nat}
    (transient : ∀ i < n, isTransient (outcome idle outcomes i) = true) :
    ∃ failures : List Error, failures.length = n ∧ (∀ e ∈ failures, e.isRetryable = true) ∧
      outcomes = failures.map .error ++ outcomes.drop n := by
  induction n generalizing outcomes with
  | zero => exact ⟨[], rfl, by simp, rfl⟩
  | succ n ih =>
      have hfirst := transient 0 (Nat.succ_pos n)
      cases outcomes with
      | nil => cases hfirst
      | cons o rest =>
          cases o with
          | ok a => cases hfirst
          | error e =>
              have hlater : ∀ i < n, isTransient (outcome idle rest i) = true :=
                fun i hi => transient (i + 1) (Nat.succ_lt_succ hi)
              obtain ⟨failures, hlength, hall, hrest⟩ := ih hlater
              refine ⟨e :: failures, by simp [hlength], ?_, ?_⟩
              · simpa using ⟨hfirst, hall⟩
              · simpa using hrest

theorem outcome_drop (idle : α) (outcomes : List (Except Error α)) (n i : Nat) :
    outcome idle (outcomes.drop n) i = outcome idle outcomes (n + i) := by
  simp [outcome]

/-- The run up to its `n`-th retry. -/
theorem run_of_transient {idle : α} {outcomes : List (Except Error α)} {n : Nat}
    (transient : ∀ i < n, isTransient (outcome idle outcomes i) = true)
    (within : ∀ limit, p.maxRetries = some limit → n ≤ limit.toNat) (start : Nat) :
    p.run idle outcomes 0 start =
      let later := p.run idle (outcomes.drop n) (.ofNat n) (p.timeOf start n)
      { later with calls := (List.range n).map (p.timeOf start) ++ later.calls } := by
  obtain ⟨failures, rfl, hall, hsplit⟩ := exists_failures transient
  have hretried := retried_iff.mpr ⟨hall, within, rfl⟩
  rw [hsplit, hretried.run_eq, ← hsplit]

/-! ### The whole run -/

/-- A run whose failures end before the limit is reached. -/
theorem run_within {idle : α} {outcomes : List (Except Error α)} {n : Nat}
    (transient : ∀ i < n, isTransient (outcome idle outcomes i) = true)
    (settled : isTransient (outcome idle outcomes n) = false)
    (within : ∀ limit, p.maxRetries = some limit → n ≤ limit.toNat) (start : Nat) :
    p.run idle outcomes 0 start = {
      result := outcome idle outcomes n
      calls := (List.range (n + 1)).map (p.timeOf start)
      clock := p.timeOf start n
      unused := outcomes.drop (n + 1) } := by
  have hlast : outcome idle (outcomes.drop n) 0 = outcome idle outcomes n := outcome_drop ..
  rw [run_of_transient transient within, run_of_settled (by rwa [hlast])]
  simp [hlast, List.range_succ]

/-- A run that reaches the limit with another failure. -/
theorem run_to_limit {idle : α} {outcomes : List (Except Error α)} {limit : UInt32}
    (hlimit : p.maxRetries = some limit)
    (transient : ∀ i ≤ limit.toNat, isTransient (outcome idle outcomes i) = true) (start : Nat) :
    ∃ last, outcome idle outcomes limit.toNat = .error last ∧ p.run idle outcomes 0 start = {
      result := .error (.exhausted (limit + 1) last)
      calls := (List.range (limit.toNat + 1)).map (p.timeOf start)
      clock := p.timeOf start limit.toNat
      unused := outcomes.drop (limit.toNat + 1) } := by
  have hlast : outcome idle (outcomes.drop limit.toNat) 0 = outcome idle outcomes limit.toNat :=
    outcome_drop ..
  have hfailed := transient limit.toNat (Nat.le_refl _)
  obtain ⟨last, houtcome⟩ : ∃ last, outcome idle outcomes limit.toNat = .error last := by
    cases houtcome : outcome idle outcomes limit.toNat with
    | ok a => rw [houtcome] at hfailed; cases hfailed
    | error last => exact ⟨last, rfl⟩
  have hretryable : last.isRetryable = true := by rwa [houtcome] at hfailed
  have hspent : p.allows limit = false := by simp [allows, hlimit]
  have within : ∀ limit', p.maxRetries = some limit' → limit.toNat ≤ limit'.toNat := by
    intro limit' h
    rw [hlimit] at h
    cases h
    exact Nat.le_refl _
  refine ⟨last, houtcome, ?_⟩
  rw [run_of_transient (fun i hi => transient i (Nat.le_of_lt hi)) within, UInt32.ofNat_toNat,
    run_of_spent (hlast.trans houtcome) hretryable hspent]
  simp [List.range_succ]

/--
**A run is exact.**  Let `j` be the first call whose outcome is no failure worth another try.
If the policy has no limit, or one of at least `j`, the run makes the calls up to this one and
gives its outcome.  If the limit is less, the run makes one call more than the limit, reports
their number, and gives the last failure seen.  In either case the first call is made at the
start, each later one when the policy has waited since the one before, and nothing is waited
for after the last.
-/
theorem run_exact (p : RetryPolicy) (idle : α) (outcomes : List (Except Error α)) (start : Nat)
    {j : Nat} (transient : ∀ i < j, isTransient (outcome idle outcomes i) = true)
    (settled : isTransient (outcome idle outcomes j) = false) :
    ((∀ limit, p.maxRetries = some limit → j ≤ limit.toNat) →
      p.run idle outcomes 0 start = {
        result := outcome idle outcomes j
        calls := (List.range (j + 1)).map (p.timeOf start)
        clock := p.timeOf start j
        unused := outcomes.drop (j + 1) }) ∧
    ∀ limit, p.maxRetries = some limit → limit.toNat < j → limit.toNat + 1 < 2 ^ 32 →
      ∃ attempts last, attempts.toNat = limit.toNat + 1 ∧
        outcome idle outcomes limit.toNat = .error last ∧
        p.run idle outcomes 0 start = {
          result := .error (.exhausted attempts last)
          calls := (List.range (limit.toNat + 1)).map (p.timeOf start)
          clock := p.timeOf start limit.toNat
          unused := outcomes.drop (limit.toNat + 1) } := by
  refine ⟨fun within => run_within transient settled within start, ?_⟩
  intro limit hlimit hbelow hfew
  obtain ⟨last, hlast, hrun⟩ := run_to_limit hlimit
    (fun i hi => transient i (Nat.lt_of_le_of_lt hi hbelow)) start
  refine ⟨limit + 1, last, ?_, hlast, hrun⟩
  rw [UInt32.toNat_add, UInt32.toNat_one, Nat.mod_eq_of_lt hfew]

/-- Two failures, which a limit of three lets pass and a limit of one does not. -/
theorem run_exact_two_failures :
    let outcomes : List (Except Error Nat) :=
      [.error (.throttled "slow down"), .error (.transport "timeout" true), .ok 7]
    let strict : RetryPolicy := { fast with maxRetries := some 1 }
    (∀ i < 2, isTransient (outcome 0 outcomes i) = true) ∧
    isTransient (outcome 0 outcomes 2) = false ∧
    fast.run 0 outcomes 0 5 = ⟨.ok 7, [5, 15, 35], 35, []⟩ ∧
    ∃ attempts, attempts.toNat = 2 ∧ strict.run 0 outcomes 0 5 =
      ⟨.error (.exhausted attempts (.transport "timeout" true)), [5, 15], 15, [.ok 7]⟩ := by
  intro outcomes strict
  have transient : ∀ i < 2, isTransient (outcome 0 outcomes i) = true := by decide
  have settled : isTransient (outcome 0 outcomes 2) = false := by decide
  have hwithin : ∀ limit, fast.maxRetries = some limit → 2 ≤ limit.toNat := by
    rintro limit ⟨⟩
    decide
  have htimes : (List.range (2 + 1)).map (fast.timeOf 5) = [5, 15, 35] := by decide +kernel
  have hend : fast.timeOf 5 2 = 35 := by decide +kernel
  have htimes' : (List.range (1 + 1)).map (strict.timeOf 5) = [5, 15] := by decide +kernel
  have hend' : strict.timeOf 5 1 = 15 := by decide +kernel
  have hrun := (run_exact fast 0 outcomes 5 transient settled).1 hwithin
  obtain ⟨attempts, last, hattempts, hlast, hrun'⟩ :=
    (run_exact strict 0 outcomes 5 transient settled).2 1 rfl (by decide) (by decide)
  rw [UInt32.toNat_one] at hattempts hlast hrun'
  cases hlast
  rw [htimes, hend] at hrun
  rw [htimes', hend'] at hrun'
  exact ⟨transient, settled, hrun, attempts, hattempts, hrun'⟩

/-- A wait is cut to thirty years: the second call comes a millisecond before the policy says. -/
theorem timeOf_cut_short :
    let p : RetryPolicy := ⟨some 3, 946080000001, 18446744073709551615, 1.0⟩
    let run := p.run 2 [.error (.throttled "slow")] 0 0
    (p.backoff 0).toNat = 946080000001 ∧ run.calls = [0, 946080000000] := by
  decide +kernel

/-! ### The count of retries -/

/-- Somewhere in a run that meets these failures one is added to the greatest count there is.
At every failure one is added to the count, for the next call or for the number of calls that is
reported. -/
def Overflows (p : RetryPolicy) (failures : List Error) : Prop :=
  ∃ before e after retries, failures = before ++ e :: after ∧ p.Retried before retries ∧
    2 ^ 32 ≤ retries.toNat + 1

theorem Retried.toNat_eq {failures : List Error} {retries : UInt32}
    (h : p.Retried failures retries) : retries.toNat = failures.length % 2 ^ 32 := by
  obtain ⟨-, -, rfl⟩ := retried_iff.mp h
  exact UInt32.toNat_ofNat'

/-- The count overflows at failure number 2 ^ 32, if the limit lets a run come so far. -/
theorem overflows_iff {failures : List Error}
    (transient : ∀ e ∈ failures, e.isRetryable = true) : p.Overflows failures ↔
      2 ^ 32 ≤ failures.length ∧ ∀ limit, p.maxRetries = some limit → limit.toNat + 1 = 2 ^ 32 := by
  constructor
  · rintro ⟨before, e, after, retries, rfl, hretried, hover⟩
    have hcount := hretried.toNat_eq
    obtain ⟨-, hlimit, -⟩ := retried_iff.mp hretried
    have hmany : 2 ^ 32 ≤ before.length + 1 := by omega
    refine ⟨by simp only [List.length_append, List.length_cons]; omega, fun limit h => ?_⟩
    have hle := hlimit limit h
    have hlt := limit.toNat_lt
    omega
  · rintro ⟨hmany, hlimit⟩
    have hshort : 2 ^ 32 - 1 < failures.length := by omega
    have hlength : (failures.take (2 ^ 32 - 1)).length = 2 ^ 32 - 1 :=
      List.length_take_of_le (Nat.le_of_lt hshort)
    have hretried : p.Retried (failures.take (2 ^ 32 - 1)) (.ofNat (2 ^ 32 - 1)) := by
      refine retried_iff.mpr ⟨fun e he => transient e (List.mem_of_mem_take he), ?_, by rw [hlength]⟩
      intro limit h
      have := hlimit limit h
      omega
    refine ⟨_, failures[2 ^ 32 - 1], failures.drop (2 ^ 32 - 1 + 1), _, ?_, hretried, ?_⟩
    · rw [← List.drop_eq_getElem_cons, List.take_append_drop]
    · rw [hretried.toNat_eq, hlength]
      omega

theorem outcome_failures {idle : α} {failures : List Error} {rest : List (Except Error α)} {i : Nat}
    (h : i < failures.length) :
    outcome idle (failures.map .error ++ rest) i = .error failures[i] := by
  rw [outcome, List.getElem?_append_left (by simpa using h), List.getElem?_map,
    List.getElem?_eq_getElem h]
  rfl

/-- A run that meets more failures than the limit reports its calls in a word. -/
theorem run_beyond_limit {failures : List Error}
    (transient : ∀ e ∈ failures, e.isRetryable = true) (idle : α) (rest : List (Except Error α))
    (start : Nat) {limit : UInt32} (hlimit : p.maxRetries = some limit)
    (beyond : limit.toNat < failures.length) :
    (p.run idle (failures.map .error ++ rest) 0 start).calls.length = limit.toNat + 1 ∧
      (p.run idle (failures.map .error ++ rest) 0 start).result =
        .error (.exhausted (limit + 1) failures[limit.toNat]) := by
  have hall : ∀ i ≤ limit.toNat,
      isTransient (outcome idle (failures.map .error ++ rest) i) = true := by
    intro i hi
    rw [outcome_failures (Nat.lt_of_le_of_lt hi beyond)]
    exact transient _ (List.getElem_mem _)
  obtain ⟨last, hlast, hrun⟩ := run_to_limit hlimit hall start
  rw [outcome_failures beyond] at hlast
  cases hlast
  rw [hrun]
  exact ⟨by simp, rfl⟩

/--
**The count of retries is exact up to 2 ^ 32 failures in a row, and no further.**

Where a run has met so many failures and goes on, it goes on with their number as its count, less
what does not fit a word; this count says how long the next wait is.  An addition to the count
overflows exactly if there are 2 ^ 32 failures in a row, and the policy has no limit or the greatest
one there is.  A run that reaches the limit makes one call more than the limit and reports this
number, less what does not fit a word.
-/
theorem count_exact (p : RetryPolicy) (idle : α) {failures : List Error}
    (transient : ∀ e ∈ failures, e.isRetryable = true) (rest : List (Except Error α))
    (start : Nat) :
    (∀ before retries, p.Retried before retries → retries.toNat = before.length % 2 ^ 32 ∧
      p.run idle (before.map .error ++ rest) 0 start =
        let later := p.run idle rest retries (p.timeOf start before.length)
        { later with
          calls := (List.range before.length).map (p.timeOf start) ++ later.calls }) ∧
    (p.Overflows failures ↔ 2 ^ 32 ≤ failures.length ∧
      ∀ limit, p.maxRetries = some limit → limit.toNat + 1 = 2 ^ 32) ∧
    ∀ limit, p.maxRetries = some limit → limit.toNat < failures.length →
      let run := p.run idle (failures.map .error ++ rest) 0 start
      run.calls.length = limit.toNat + 1 ∧
        ∃ attempts last, run.result = .error (.exhausted attempts last) ∧
          attempts.toNat = run.calls.length % 2 ^ 32 := by
  refine ⟨fun before retries h => ⟨h.toNat_eq, h.run_eq idle start rest⟩,
    overflows_iff transient, ?_⟩
  intro limit hlimit hbeyond run
  obtain ⟨hcalls, hresult⟩ := run_beyond_limit transient idle rest start hlimit hbeyond
  refine ⟨hcalls, _, _, hresult, ?_⟩
  rw [hcalls, UInt32.toNat_add, UInt32.toNat_one]

/-- A limit of two, met by three failures. -/
theorem count_exact_three_failures :
    let failures : List Error := [.throttled "a", .transport "b" true, .throttled "c"]
    let p : RetryPolicy := { fast with maxRetries := some 2 }
    (∀ e ∈ failures, e.isRetryable = true) ∧ p.Retried (failures.take 2) 2 ∧
      ¬ p.Overflows failures ∧
      (p.run 0 (failures.map .error) 0 0).calls.length = 3 := by
  intro failures p
  have transient : ∀ e ∈ failures, e.isRetryable = true := by decide
  obtain ⟨-, hoverflows, hlimit⟩ := count_exact p 0 transient [] 0
  refine ⟨transient, ?_, ?_, ?_⟩
  · exact retried_iff.mpr ⟨by decide, by rintro limit ⟨⟩; decide, rfl⟩
  · rw [hoverflows]
    decide
  · exact (hlimit 2 rfl (by decide)).1

/-- With the greatest limit there is, 2 ^ 32 failures in a row make an addition overflow, and the
run reports that it made no call. -/
theorem calls_unreported :
    let failures : List Error := List.replicate (2 ^ 32) (.throttled "slow down")
    let p : RetryPolicy := { immediate with maxRetries := some 4294967295 }
    immediate.Overflows failures ∧ p.Overflows failures ∧
      (p.run () (failures.map .error) 0 0).calls.length = 2 ^ 32 ∧
      (p.run () (failures.map .error) 0 0).result =
        .error (.exhausted 0 (.throttled "slow down")) := by
  intro failures p
  have transient : ∀ e ∈ failures, e.isRetryable = true := by
    intro e he
    rw [List.eq_of_mem_replicate he]
    rfl
  have hlength : failures.length = 2 ^ 32 := List.length_replicate
  have hbeyond : (4294967295 : UInt32).toNat < failures.length := by
    rw [hlength]
    decide
  obtain ⟨hcalls, hresult⟩ := run_beyond_limit (p := p) transient () [] 0 rfl hbeyond
  rw [List.append_nil] at hcalls hresult
  refine ⟨?_, ?_, hcalls, ?_⟩
  · exact (overflows_iff transient).mpr ⟨Nat.le_of_eq hlength.symm, nofun⟩
  · exact (overflows_iff transient).mpr
      ⟨Nat.le_of_eq hlength.symm, by rintro limit ⟨⟩; decide⟩
  · rw [hresult, List.getElem_replicate]
    rfl

end ItemStore.RetryPolicy
