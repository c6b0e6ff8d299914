/-
Every order in which the buckets of a fetch can go on.

`Fetch.run` always picks the bucket that is due first.  Nothing that is proved about the
result of a fetch depends on that choice, so the proofs are about `Reaches`: any number of
steps, each letting any bucket in flight go on.

`Fetch.step` has five outcomes, and `Goes` lists them once with everything they change:
a call is sent, a reply is taken, a reply ends the fetch, a bucket is done, a bucket can not
be made into results.  The flights after a step are given up to order only, as the one that
went on and the others.

Most properties of a fetch are local to one bucket and the store.  `Rule` is such a
property, three obligations on one bucket at a time, and `Rule.holds_of_reaches` is the
induction over all orders, carried out once for all of them.
-/
import Mathlib.Data.List.Perm.Basic
import ItemStore.Batch.Fetch

namespace ItemStore.Fetch

variable {σ M : Type} {plan : FetchPlan M} {t : Transport σ}

/-- A number of steps leads from one state of a fetch to another, each step letting some
bucket in flight go on. -/
inductive Reaches (plan : FetchPlan M) (t : Transport σ) (s₀ : Fetch σ M) :
    Nat → Fetch σ M → Prop
  | refl : Reaches plan t s₀ 0 s₀
  | go {n : Nat} {s : Fetch σ M} {f : Flight} (before : Reaches plan t s₀ n s)
      (going : s.failure = none) (mem : f ∈ s.flights) :
      Reaches plan t s₀ (n + 1) (s.step plan t f)

/-- A step may also be put before all others. -/
theorem Reaches.head {s₀ s : Fetch σ M} {f : Flight} {n : Nat} (going : s₀.failure = none)
    (mem : f ∈ s₀.flights) (h : Reaches plan t (s₀.step plan t f) n s) :
    Reaches plan t s₀ (n + 1) s := by
  induction h with
  | refl => exact .go .refl going mem
  | go _ going' mem' ih => exact .go ih going' mem'

/-! ### One flight and the others

Buckets in flight have different indices, so filtering out an index takes away exactly the
flight that has it.
-/

/-- The flights of the other buckets. -/
def others (s : Fetch σ M) (f : Flight) : List Flight :=
  s.flights.filter fun g => g.index ≠ f.index

theorem perm_cons_filter_index {l : List Flight} {f : Flight} (hnodup : (l.map (·.index)).Nodup)
    (mem : f ∈ l) : l.Perm (f :: l.filter fun g => g.index ≠ f.index) := by
  induction l with
  | nil => simp at mem
  | cons g l ih =>
      rw [List.map_cons, List.nodup_cons] at hnodup
      obtain ⟨hg, hl⟩ := hnodup
      rcases List.mem_cons.mp mem with he | hmem
      · subst he
        have hkeep : l.filter (fun g => g.index ≠ f.index) = l := by
          refine List.filter_eq_self.mpr fun g hmem => ?_
          simpa using fun he : g.index = f.index => hg (List.mem_map.mpr ⟨g, hmem, he⟩)
        rw [List.filter_cons_of_neg (by simp), hkeep]
      · have hne : g.index ≠ f.index := fun he =>
          hg (List.mem_map.mpr ⟨f, hmem, he.symm⟩)
        rw [List.filter_cons_of_pos (by simpa using hne)]
        exact ((ih hl hmem).cons g).trans (List.Perm.swap _ _ _)

theorem flights_perm {s : Fetch σ M} {f : Flight} (hnodup : (s.flights.map (·.index)).Nodup)
    (mem : f ∈ s.flights) : s.flights.Perm (f :: s.others f) :=
  perm_cons_filter_index hnodup mem

/-- A bucket that goes on takes the place of its flight, wherever it comes to stand. -/
theorem resume_flights_perm {s : Fetch σ M} {f g : Flight}
    (hnodup : (s.flights.map (·.index)).Nodup) (mem : f ∈ s.flights) (hindex : g.index = f.index)
    (wait : Nat) :
    (s.resume g wait).flights.Perm
      ({ g with due := s.session.clock + waitTime wait } :: s.others f) := by
  unfold resume
  by_cases hwait : wait = 0
  · simp only [if_pos hwait, hindex]
    refine ((flights_perm hnodup mem).map _).trans ?_
    rw [List.map_cons, if_pos rfl]
    refine List.Perm.cons _ (List.Perm.of_eq ?_)
    -- The others have other indices, so the replacement passes them over.
    refine (List.map_congr_left fun h hh => ?_).trans (List.map_id _)
    have hne : h.index ≠ f.index := by simpa using (List.mem_filter.mp hh).2
    rw [if_neg hne]
    rfl
  · simp only [if_neg hwait, hindex]
    exact List.perm_append_comm

/-! ### What a step does -/

/-- The session at the time at which a bucket goes on. -/
def arrived (s : Fetch σ M) (f : Flight) : Session σ :=
  { s.session with clock := max s.session.clock f.due }

/-- A fetch whose bucket `f` went on, and everything that changed. -/
inductive Goes (plan : FetchPlan M) (t : Transport σ) (s : Fetch σ M) (f : Flight) :
    Fetch σ M → Prop
  /-- The bucket sends the request of its round. -/
  | sends {s' : Fetch σ M} (due : Nat) (idle : f.calling = false)
      (left : f.pager.isDone = false)
      (session : s'.session = ((s.arrived f).send t f.pager.request).1)
      (flights : s'.flights.Perm ({ f with calling := true, due } :: s.others f))
      (waiting : s'.waiting = s.waiting) (finished : s'.finished = s.finished)
      (failure : s'.failure = s.failure) : Goes plan t s f s'
  /-- The bucket takes a reply that does not end the fetch. -/
  | takes {s' : Fetch σ M} (pager : Pager) (wait due : Nat) (calling : f.calling = true)
      (received : f.pager.receive plan.policy plan.table
        ((s.arrived f).reply t f.pager.request).2 = .ok (pager, wait))
      (session : s'.session = ((s.arrived f).reply t f.pager.request).1)
      (flights : s'.flights.Perm ({ f with pager, calling := false, due } :: s.others f))
      (waiting : s'.waiting = s.waiting) (finished : s'.finished = s.finished)
      (failure : s'.failure = s.failure) : Goes plan t s f s'
  /-- The bucket takes a reply that ends the fetch. -/
  | fails (e : Error) (calling : f.calling = true)
      (received : f.pager.receive plan.policy plan.table
        ((s.arrived f).reply t f.pager.request).2 = .error e) :
      Goes plan t s f
        { s with session := ((s.arrived f).reply t f.pager.request).1, failure := some e }
  /-- The bucket is done, and further ones are started. -/
  | finishes (models : List M) (idle : f.calling = false) (done : f.pager.isDone = true)
      (built : plan.build f.pager.items = .ok models) :
      Goes plan t s f (launch plan { s with
        session := s.arrived f
        flights := s.others f
        finished := s.finished ++ [(f.index, models)] })
  /-- The bucket is done, but its items can not be made into results. -/
  | breaks (e : Error) (idle : f.calling = false) (done : f.pager.isDone = true)
      (built : plan.build f.pager.items = .error e) :
      Goes plan t s f { s with
        session := s.arrived f, flights := s.others f, failure := some e }

theorem step_goes {s : Fetch σ M} {f : Flight} (hnodup : (s.flights.map (·.index)).Nodup)
    (mem : f ∈ s.flights) : Goes plan t s f (s.step plan t f) := by
  unfold step
  by_cases hcalling : f.calling = true
  · simp only [if_pos hcalling]
    split
    · rename_i pager wait hreceive
      have hflights := resume_flights_perm (g := { f with pager, calling := false })
        (s := { s with session := ((s.arrived f).reply t f.pager.request).1 }) hnodup mem rfl wait
      exact .takes pager wait _ hcalling hreceive rfl hflights rfl rfl rfl
    · rename_i e hreceive
      exact .fails e hcalling hreceive
  · simp only [if_neg hcalling]
    have hidle : f.calling = false := by simpa using hcalling
    by_cases hdone : f.pager.isDone = true
    · simp only [if_pos hdone]
      split
      · rename_i models hbuild
        exact .finishes models hidle hdone hbuild
      · rename_i e hbuild
        exact .breaks e hidle hdone hbuild
    · simp only [if_neg hdone]
      have hflights := resume_flights_perm (g := { f with calling := true })
        (s := { s with session := ((s.arrived f).send t f.pager.request).1 }) hnodup mem rfl
        ((s.arrived f).send t f.pager.request).2
      exact .sends _ hidle (by simpa using hdone) rfl hflights rfl rfl rfl

/-! ### Starting buckets -/

/-- The flight of a bucket that has just been started. -/
def launched (s : Fetch σ M) (w : Nat × BatchRequest) : Flight :=
  { index := w.1, pager := { request := w.2 }, due := s.session.clock }

/-- The buckets that are started and those that still wait are those that waited. -/
theorem launch_split (plan : FetchPlan M) (s : Fetch σ M) :
    ∃ begun, s.waiting = begun ++ (launch plan s).waiting ∧
      (launch plan s).flights = s.flights ++ begun.map s.launched := by
  refine ⟨s.waiting.take (plan.concurrency - s.flights.length), ?_, rfl⟩
  exact (List.take_append_drop _ _).symm

@[simp] theorem launch_session (plan : FetchPlan M) (s : Fetch σ M) :
    (launch plan s).session = s.session := rfl

@[simp] theorem launch_finished (plan : FetchPlan M) (s : Fetch σ M) :
    (launch plan s).finished = s.finished := rfl

@[simp] theorem launch_failure (plan : FetchPlan M) (s : Fetch σ M) :
    (launch plan s).failure = s.failure := rfl

/-! ### Every bucket is in one place -/

/-- The indices of all buckets, those that wait, those in flight and those that are done. -/
def indices (s : Fetch σ M) : List Nat :=
  s.waiting.map (·.1) ++ s.flights.map (·.index) ++ s.finished.map (·.1)

theorem launch_indices (plan : FetchPlan M) (s : Fetch σ M) :
    (launch plan s).indices.Perm s.indices := by
  obtain ⟨begun, hwaiting, hflights⟩ := launch_split plan s
  have hbegun : (begun.map s.launched).map (·.index) = begun.map (·.1) := by
    rw [List.map_map]
    rfl
  unfold indices
  rw [hwaiting, hflights, launch_finished, List.map_append, List.map_append, hbegun]
  refine List.Perm.append_right _ ?_
  refine List.perm_append_comm.trans ?_
  rw [List.append_assoc]
  exact List.perm_append_comm

theorem goes_indices {s s' : Fetch σ M} {f : Flight} (hnodup : (s.flights.map (·.index)).Nodup)
    (mem : f ∈ s.flights) (h : Goes plan t s f s') (going : s'.failure = none) :
    s'.indices.Perm s.indices := by
  have hsplit : (s.flights.map (·.index)).Perm (f.index :: (s.others f).map (·.index)) :=
    (flights_perm hnodup mem).map _
  cases h with
  | sends due _ _ _ flights waiting finished _ =>
      unfold indices
      rw [waiting, finished]
      have hsame : (s'.flights.map (·.index)).Perm (s.flights.map (·.index)) :=
        (flights.map _).trans hsplit.symm
      exact (hsame.append_left _).append_right _
  | takes pager wait due _ _ _ flights waiting finished _ =>
      unfold indices
      rw [waiting, finished]
      have hsame : (s'.flights.map (·.index)).Perm (s.flights.map (·.index)) :=
        (flights.map _).trans hsplit.symm
      exact (hsame.append_left _).append_right _
  | fails e _ _ => cases going
  | finishes models _ _ _ =>
      refine (launch_indices plan _).trans ?_
      have hmoved : ((s.others f).map (·.index) ++ (s.finished.map (·.1) ++ [f.index])).Perm
          (s.flights.map (·.index) ++ s.finished.map (·.1)) := by
        rw [← List.append_assoc]
        exact List.perm_append_comm.trans (hsplit.symm.append_right _)
      unfold indices
      simp only [List.map_append, List.map_cons, List.map_nil, List.append_assoc]
      exact hmoved.append_left _
  | breaks e _ _ _ => cases going

theorem nodup_flights {s : Fetch σ M} (h : s.indices.Nodup) : (s.flights.map (·.index)).Nodup :=
  ((List.nodup_append.mp (List.nodup_append.mp h).1).2).1

/-- No bucket is lost and none comes twice, as long as the fetch has not failed. -/
theorem reaches_indices {s₀ s : Fetch σ M} {n : Nat} (hnodup : s₀.indices.Nodup)
    (h : Reaches plan t s₀ n s) (going : s.failure = none) : s.indices.Perm s₀.indices := by
  induction h with
  | refl => exact List.Perm.refl _
  | go _ hgoing mem ih =>
      have hbefore := ih hgoing
      have hflights := nodup_flights (hbefore.nodup_iff.mpr hnodup)
      exact (goes_indices hflights mem (step_goes hflights mem) going).trans hbefore

/-! ### Rules -/

/-- What holds of the store and of each bucket by itself, whatever the others do. -/
structure Rule (plan : FetchPlan M) (t : Transport σ) where
  /-- What holds of the state of the store. -/
  store : σ → Prop
  /-- What holds of the pager of a bucket whose call is out, or is not. -/
  flight : Nat → Pager → Bool → Prop
  /-- What holds of the result of a bucket. -/
  result : Nat → List M → Prop
  /-- What holds of the error that ends the fetch. -/
  error : Error → Prop
  sends : ∀ {x i p}, store x → flight i p false → p.isDone = false →
    store (t.send x p.request).1 ∧ flight i p true
  takes : ∀ {x i p pager wait}, store x → flight i p true →
    p.receive plan.policy plan.table (t.reply x p.request).2 = .ok (pager, wait) →
    store (t.reply x p.request).1 ∧ flight i pager false
  fails : ∀ {x i p e}, store x → flight i p true →
    p.receive plan.policy plan.table (t.reply x p.request).2 = .error e →
    store (t.reply x p.request).1 ∧ error e
  finishes : ∀ {i p models}, flight i p false → p.isDone = true →
    plan.build p.items = .ok models → result i models
  breaks : ∀ {i p e}, flight i p false → p.isDone = true →
    plan.build p.items = .error e → error e

namespace Rule

variable {r : Rule plan t}

/-- The rule holds of everything in a fetch. -/
structure Holds (r : Rule plan t) (s : Fetch σ M) : Prop where
  store : r.store s.session.store
  /-- A bucket that waits will start with its request and nothing else. -/
  waiting : ∀ w ∈ s.waiting, r.flight w.1 { request := w.2 } false
  flights : ∀ f ∈ s.flights, r.flight f.index f.pager f.calling
  finished : ∀ d ∈ s.finished, r.result d.1 d.2
  failure : ∀ e, s.failure = some e → r.error e

theorem holds_launch {s : Fetch σ M} (h : r.Holds s) : r.Holds (launch plan s) := by
  obtain ⟨begun, hwaiting, hflights⟩ := launch_split plan s
  refine ⟨h.store, ?_, ?_, h.finished, h.failure⟩
  · intro w hw
    refine h.waiting w ?_
    rw [hwaiting]
    exact List.mem_append_right _ hw
  · intro f hf
    rw [hflights] at hf
    rcases List.mem_append.mp hf with hold | hnew
    · exact h.flights f hold
    · obtain ⟨w, hw, rfl⟩ := List.mem_map.mp hnew
      refine h.waiting w ?_
      rw [hwaiting]
      exact List.mem_append_left _ hw

/-- The rule holds of the other buckets whatever becomes of one. -/
theorem flights_of_perm {s : Fetch σ M} {f g : Flight} {flights : List Flight} (h : r.Holds s)
    (hperm : flights.Perm (g :: s.others f)) (hg : r.flight g.index g.pager g.calling) :
    ∀ f ∈ flights, r.flight f.index f.pager f.calling := by
  intro f' hf'
  rcases List.mem_cons.mp (hperm.mem_iff.mp hf') with he | hother
  · rw [he]
    exact hg
  · exact h.flights f' (List.mem_filter.mp hother).1

theorem holds_of_goes {s s' : Fetch σ M} {f : Flight} (h : r.Holds s) (mem : f ∈ s.flights)
    (hgoes : Goes plan t s f s') : r.Holds s' := by
  have hf := h.flights f mem
  cases hgoes with
  | sends due idle left session flights waiting finished failure =>
      rw [idle] at hf
      obtain ⟨hstore, hflight⟩ := r.sends h.store hf left
      refine ⟨?_, waiting ▸ h.waiting, flights_of_perm h flights hflight, finished ▸ h.finished,
        failure ▸ h.failure⟩
      rw [session]
      exact hstore
  | takes pager wait due calling received session flights waiting finished failure =>
      rw [calling] at hf
      obtain ⟨hstore, hflight⟩ := r.takes h.store hf received
      refine ⟨?_, waiting ▸ h.waiting, flights_of_perm h flights hflight, finished ▸ h.finished,
        failure ▸ h.failure⟩
      rw [session]
      exact hstore
  | fails e calling received =>
      rw [calling] at hf
      obtain ⟨hstore, herror⟩ := r.fails h.store hf received
      refine ⟨hstore, h.waiting, h.flights, h.finished, ?_⟩
      intro e' he'
      cases he'
      exact herror
  | finishes models idle done built =>
      rw [idle] at hf
      refine holds_launch ⟨h.store, h.waiting, ?_, ?_, h.failure⟩
      · intro g hg
        exact h.flights g (List.mem_filter.mp hg).1
      · intro d hd
        rcases List.mem_append.mp hd with hold | hnew
        · exact h.finished d hold
        · rw [List.mem_singleton.mp hnew]
          exact r.finishes hf done built
  | breaks e idle done built =>
      rw [idle] at hf
      refine ⟨h.store, h.waiting, ?_, h.finished, ?_⟩
      · intro g hg
        exact h.flights g (List.mem_filter.mp hg).1
      · intro e' he'
        cases he'
        exact r.breaks hf done built

/-- **What holds of every bucket at the start holds of it in every order of steps.** -/
theorem holds_of_reaches {s₀ s : Fetch σ M} {n : Nat} (hnodup : s₀.indices.Nodup)
    (h₀ : r.Holds s₀) (h : Reaches plan t s₀ n s) : r.Holds s := by
  induction h with
  | refl => exact h₀
  | go before hgoing mem ih =>
      have hbefore := reaches_indices hnodup before hgoing
      have hflights := nodup_flights (hbefore.nodup_iff.mpr hnodup)
      exact holds_of_goes ih mem (step_goes hflights mem)

end Rule

end ItemStore.Fetch
