/-
One budget for all tables.

A call to the store looks up so many keys and no more, in whatever tables they are.  The tables draw
on this budget one after another, in an order that nobody promises: each is looked up from its
first key on until the budget is used up, and what is left of it is reported (`share` is how many
keys of a table are looked up).  The shares of all tables together are what the budget pays for
(`sum_share`).

Every table is answered once, so what is found for it and what is left of it stand in the reply as
they were put there (`splitsAt_answerTables`).  No table of which nothing is left is reported
(`reported_iff`), and the reply leaves keys exactly if there are more of them than the budget pays
for (`exists_share_lt_iff`).
-/
import Mathlib.Algebra.GroupWithZero.Nat
import Mathlib.Algebra.Order.BigOperators.Group.List
import Mathlib.Algebra.Order.Group.Nat
import ItemStore.Proofs.Dict
import ItemStore.Store

namespace ItemStore

namespace Store

/-- How many of a number of keys a budget pays for. -/
def allowed (budget : Option Nat) (n : Nat) : Nat :=
  match budget with
  | some limit => min n limit
  | none => n

/-- How many keys of a table are looked up when tables draw on a budget in turn. -/
def share : (budget : Option Nat) → List (String × TableRequest) → String → Nat
  | _, [], _ => 0
  | budget, (name, wanted) :: rest, table =>
    let n := allowed budget wanted.keys.length
    if table = name then n else share (drawn budget n) rest table

/-- A reply to a request, its tables taken in some order. -/
def Answers (s : Store) (r : BatchRequest) (response : BatchResponse) : Prop :=
  ∃ tables, tables.Perm r.tables.toList ∧ response = s.answerTables s.pageLimit tables ∅

/-- The reply takes them in the order of their names. -/
theorem answers_answer (s : Store) (r : BatchRequest) : s.Answers r (s.answer r) :=
  ⟨r.tables.toList, .refl _, rfl⟩

theorem allowed_le (budget : Option Nat) (n : Nat) : allowed budget n ≤ n := by
  cases budget with
  | none => exact Nat.le_refl n
  | some limit => exact Nat.min_le_left n limit

theorem allowed_zero (budget : Option Nat) : allowed budget 0 = 0 :=
  Nat.le_zero.mp (allowed_le budget 0)

/-- What is drawn for some keys and then for others is drawn for all of them. -/
theorem allowed_add (budget : Option Nat) (m n : Nat) :
    allowed budget (m + n) =
      allowed budget m + allowed (drawn budget (allowed budget m)) n := by
  cases budget with
  | none => rfl
  | some limit =>
      simp only [allowed, drawn, Option.map_some]
      omega

theorem allowed_lt_iff (budget : Option Nat) (n : Nat) :
    allowed budget n < n ↔ ∃ limit, budget = some limit ∧ limit < n := by
  cases budget with
  | none => simp [allowed]
  | some limit => simp [allowed]

variable (s : Store) {table name : String} {wanted : TableRequest}
variable {tables rest : List (String × TableRequest)}

/-! ### Shares -/

theorem share_cons_self (budget : Option Nat) :
    share budget ((name, wanted) :: rest) name = allowed budget wanted.keys.length := by
  rw [share, if_pos rfl]

theorem share_cons_of_ne (budget : Option Nat) (h : table ≠ name) :
    share budget ((name, wanted) :: rest) table =
      share (drawn budget (allowed budget wanted.keys.length)) rest table := by
  rw [share, if_neg h]

theorem ne_of_nodup (h : (((name, wanted) :: rest).map (·.1)).Nodup) :
    ∀ p ∈ rest, p.1 ≠ name := by
  intro p hp he
  rw [List.map_cons, List.nodup_cons] at h
  exact h.1 (List.mem_map.mpr ⟨p, hp, he⟩)

/-- No table has more keys looked up than it has. -/
theorem share_le : ∀ {tables : List (String × TableRequest)} (budget : Option Nat),
    (tables.map (·.1)).Nodup → ∀ p ∈ tables, share budget tables p.1 ≤ p.2.keys.length := by
  intro tables
  induction tables with
  | nil => simp
  | cons q rest ih =>
      obtain ⟨name, wanted⟩ := q
      intro budget hnodup p hp
      rcases List.mem_cons.mp hp with rfl | hrest
      · rw [share_cons_self]
        exact allowed_le _ _
      · rw [share_cons_of_ne _ (ne_of_nodup hnodup p hrest)]
        exact ih _ (List.nodup_cons.mp hnodup).2 p hrest

/-- **The shares of all tables are what the budget pays for.** -/
theorem sum_share : ∀ {tables : List (String × TableRequest)} (budget : Option Nat),
    (tables.map (·.1)).Nodup →
      (tables.map fun p => share budget tables p.1).sum =
        allowed budget (tables.map fun p => p.2.keys.length).sum := by
  intro tables
  induction tables with
  | nil =>
      intro budget _
      exact (allowed_zero budget).symm
  | cons q rest ih =>
      obtain ⟨name, wanted⟩ := q
      intro budget hnodup
      have hrest : (rest.map fun p => share budget ((name, wanted) :: rest) p.1) =
          rest.map fun p => share (drawn budget (allowed budget wanted.keys.length)) rest p.1 :=
        List.map_congr_left fun p hp => share_cons_of_ne _ (ne_of_nodup hnodup p hp)
      rw [List.map_cons, List.sum_cons, share_cons_self, hrest,
        ih _ (List.nodup_cons.mp hnodup).2, List.map_cons, List.sum_cons, allowed_add]

/-- Some table is not looked up whole if there are more keys than the budget pays for. -/
theorem exists_share_lt_iff (budget : Option Nat) (hnodup : (tables.map (·.1)).Nodup) :
    (∃ p ∈ tables, share budget tables p.1 < p.2.keys.length) ↔
      ∃ limit, budget = some limit ∧ limit < (tables.map fun p => p.2.keys.length).sum := by
  rw [← allowed_lt_iff, ← sum_share budget hnodup]
  constructor
  · exact List.sum_lt_sum _ _ (share_le budget hnodup)
  · exact List.exists_lt_of_sum_lt _ _

/-! ### What the reply says of a table -/

/-- The first `n` keys of a table are looked up, and the others are reported. -/
structure SplitsAt (response : BatchResponse) (table : String) (wanted : TableRequest) (n : Nat) :
    Prop where
  found : response.items.find? table = some ((wanted.keys.take n).filterMap (s.lookup table))
  left : (response.unprocessed.getD ∅).find? table =
    if wanted.keys.drop n = [] then none else some { wanted with keys := wanted.keys.drop n }

/-- A reply, and what is found and left of one table more. -/
def answerTable (response : BatchResponse) (table : String) (wanted : TableRequest) (n : Nat) :
    BatchResponse where
  items := response.items.insert table ((wanted.keys.take n).filterMap (s.lookup table))
  unprocessed :=
    if (wanted.keys.drop n).isEmpty then response.unprocessed
    else some ((response.unprocessed.getD ∅).insert table
      { wanted with keys := wanted.keys.drop n })

theorem answerTables_cons (budget : Option Nat) (response : BatchResponse) :
    s.answerTables budget ((name, wanted) :: rest) response =
      s.answerTables (drawn budget (allowed budget wanted.keys.length)) rest
        (s.answerTable response name wanted (allowed budget wanted.keys.length)) := by
  cases budget <;> rfl

/-- Answering one table leaves the others as they are. -/
theorem answerTable_of_ne (response : BatchResponse) (wanted : TableRequest) (n : Nat)
    (h : table ≠ name) :
    (s.answerTable response name wanted n).items.find? table = response.items.find? table ∧
      ((s.answerTable response name wanted n).unprocessed.getD ∅).find? table =
        (response.unprocessed.getD ∅).find? table := by
  refine ⟨by simp [answerTable, h], ?_⟩
  rw [answerTable]
  split
  · rfl
  · simp [h]

/-- A table that was not reported before is split where its keys stop being looked up. -/
theorem splitsAt_answerTable {response : BatchResponse}
    (hnone : (response.unprocessed.getD ∅).find? name = none) (wanted : TableRequest) (n : Nat) :
    s.SplitsAt (s.answerTable response name wanted n) name wanted n := by
  refine ⟨by simp [answerTable], ?_⟩
  simp only [answerTable, List.isEmpty_iff]
  split
  · exact hnone
  · simp

/-- Nothing is said of a table that is not asked for. -/
theorem answerTables_of_not_mem : ∀ {tables : List (String × TableRequest)} (budget : Option Nat)
    (response : BatchResponse), (∀ p ∈ tables, table ≠ p.1) →
      (s.answerTables budget tables response).items.find? table = response.items.find? table ∧
        ((s.answerTables budget tables response).unprocessed.getD ∅).find? table =
          (response.unprocessed.getD ∅).find? table := by
  intro tables
  induction tables with
  | nil =>
      intro budget response _
      exact ⟨rfl, rfl⟩
  | cons q rest ih =>
      obtain ⟨name, wanted⟩ := q
      intro budget response h
      obtain ⟨hitems, hleft⟩ := s.answerTable_of_ne response wanted
        (allowed budget wanted.keys.length) (h _ List.mem_cons_self)
      obtain ⟨hitems', hleft'⟩ := ih (drawn budget (allowed budget wanted.keys.length))
        (s.answerTable response name wanted (allowed budget wanted.keys.length))
        fun p hp => h p (List.mem_cons_of_mem _ hp)
      rw [answerTables_cons]
      exact ⟨hitems'.trans hitems, hleft'.trans hleft⟩

/-- **Every table is split at its share**, if it was not reported before and is asked for once. -/
theorem splitsAt_answerTables : ∀ {tables : List (String × TableRequest)} (budget : Option Nat)
    (response : BatchResponse), (tables.map (·.1)).Nodup →
      (∀ p ∈ tables, (response.unprocessed.getD ∅).find? p.1 = none) →
      ∀ p ∈ tables, s.SplitsAt (s.answerTables budget tables response) p.1 p.2
        (share budget tables p.1) := by
  intro tables
  induction tables with
  | nil => simp
  | cons q rest ih =>
      obtain ⟨name, wanted⟩ := q
      intro budget response hnodup hnone p hp
      have hne := ne_of_nodup hnodup
      rw [answerTables_cons]
      rcases List.mem_cons.mp hp with rfl | hrest
      · obtain ⟨hitems, hleft⟩ := s.answerTables_of_not_mem
          (drawn budget (allowed budget wanted.keys.length))
          (s.answerTable response name wanted (allowed budget wanted.keys.length))
          fun q hq => (hne q hq).symm
        have hsplits := s.splitsAt_answerTable (hnone _ List.mem_cons_self) wanted
          (allowed budget wanted.keys.length)
        rw [share_cons_self]
        exact ⟨hitems.trans hsplits.found, hleft.trans hsplits.left⟩
      · rw [share_cons_of_ne _ (hne p hrest)]
        refine ih _ _ (List.nodup_cons.mp hnodup).2 (fun q hq => ?_) p hrest
        rw [(s.answerTable_of_ne response wanted _ (hne q hq)).2]
        exact hnone q (List.mem_cons_of_mem _ hq)

/-- A table is reported if it is asked for and its share is not all of it. -/
theorem reported_iff (budget : Option Nat) (hnodup : (tables.map (·.1)).Nodup)
    {left : TableRequest} :
    ((s.answerTables budget tables ∅).unprocessed.getD ∅).find? table = some left ↔
      ∃ wanted, (table, wanted) ∈ tables ∧ share budget tables table < wanted.keys.length ∧
        left = { wanted with keys := wanted.keys.drop (share budget tables table) } := by
  have hsplits := s.splitsAt_answerTables budget ∅ hnodup fun _ _ => rfl
  constructor
  · intro h
    by_cases hasked : ∀ p ∈ tables, table ≠ p.1
    · rw [(s.answerTables_of_not_mem budget ∅ hasked).2] at h
      cases h
    · push Not at hasked
      obtain ⟨p, hp, rfl⟩ := hasked
      rw [(hsplits p hp).left] at h
      split at h
      · cases h
      · rename_i hrest
        cases h
        exact ⟨p.2, hp, by simpa using hrest, rfl⟩
  · rintro ⟨wanted, hp, hlt, rfl⟩
    rw [(hsplits _ hp).left, if_neg (by simpa using hlt)]

/-- A reply that reports tables reports one. -/
theorem exists_reported : ∀ {tables : List (String × TableRequest)} (budget : Option Nat)
    (response : BatchResponse),
      (∀ d, response.unprocessed = some d → ∃ table left, d.find? table = some left) →
      ∀ d, (s.answerTables budget tables response).unprocessed = some d →
        ∃ table left, d.find? table = some left := by
  intro tables
  induction tables with
  | nil => exact fun _ _ h => h
  | cons q rest ih =>
      obtain ⟨name, wanted⟩ := q
      intro budget response h
      rw [answerTables_cons]
      refine ih _ _ fun d hd => ?_
      rw [answerTable] at hd
      dsimp only at hd
      split at hd
      · exact h d hd
      · cases hd
        exact ⟨name, _, by rw [Entries.find?_insert, if_pos rfl]⟩

end Store

/-! ### Whether keys are left -/

theorem BatchRequest.keyCount_eq_sum (r : BatchRequest) :
    r.keyCount = (r.tables.toList.map fun p => p.2.keys.length).sum := by
  rw [keyCount, Entries.values, List.map_map]
  rfl

theorem BatchRequest.isEmpty_eq_false_iff (r : BatchRequest) :
    r.isEmpty = false ↔
      ∃ table wanted, r.tables.find? table = some wanted ∧ wanted.keys ≠ [] := by
  simp only [← Entries.mem_toList_iff]
  rw [isEmpty, decide_eq_false_iff_not, keyCount_eq_sum, List.sum_eq_zero_iff]
  simp

/-- A reply has unprocessed keys if it reports a table with some. -/
theorem BatchResponse.hasUnprocessed_iff (response : BatchResponse) :
    response.hasUnprocessed = true ↔
      ∃ table wanted, (response.unprocessed.getD ∅).find? table = some wanted ∧
        wanted.keys ≠ [] := by
  rw [hasUnprocessed, next?]
  cases response.unprocessed with
  | none =>
      have hnone : ∀ table, (∅ : Dict TableRequest).find? table = none := fun _ => rfl
      simp [hnone]
  | some tables =>
      rw [Option.map_some, Option.filter_some, Option.getD_some,
        ← BatchRequest.isEmpty_eq_false_iff ⟨tables⟩]
      cases (BatchRequest.mk tables).isEmpty <;> simp

namespace Store

/-- The keys of a request, parted into those a reply has looked up and those it has left. -/
structure Parts (s : Store) (r : BatchRequest) (response : BatchResponse)
    (seen left : String → List NativeKey) : Prop where
  /-- The keys of a table that are looked up come first, and the others are left. -/
  keys_eq : ∀ table wanted, r.tables.find? table = some wanted →
    wanted.keys = seen table ++ left table
  /-- What is found for a table comes in the order of its keys. -/
  found : ∀ table wanted, r.tables.find? table = some wanted →
    response.items.find? table = some ((seen table).filterMap (s.lookup table))
  /-- What is left of a table is reported with its own options, unless it is nothing. -/
  reported : ∀ table wanted, r.tables.find? table = some wanted →
    (response.unprocessed.getD ∅).find? table =
      if left table = [] then none else some { wanted with keys := left table }
  /-- Nothing is said of a table that is not asked for. -/
  others : ∀ table, r.tables.find? table = none →
    response.items.find? table = none ∧ (response.unprocessed.getD ∅).find? table = none
  /-- As many keys are looked up in all tables as the page limit allows. -/
  sum_seen : (r.tables.keys.map fun table => (seen table).length).sum =
    allowed s.pageLimit r.keyCount

variable {s : Store} {r : BatchRequest} {response : BatchResponse}
variable {tables : List (String × TableRequest)}

/-- The tables of a request in any order, the shares of each as its parts. -/
theorem parts_answerTables (horder : tables.Perm r.tables.toList)
    (hnodup : (tables.map (·.1)).Nodup) :
    ∃ seen left, s.Parts r (s.answerTables s.pageLimit tables ∅) seen left := by
  have hmem : ∀ {table wanted}, r.tables.find? table = some wanted ↔ (table, wanted) ∈ tables := by
    intro table wanted
    rw [horder.mem_iff, Entries.mem_toList_iff]
  let keys : String → List NativeKey := fun table =>
    ((r.tables.find? table).map TableRequest.keys).getD []
  have hkeys : ∀ {table wanted}, r.tables.find? table = some wanted →
      keys table = wanted.keys := by
    intro table wanted h
    simp only [keys, h, Option.map_some, Option.getD_some]
  have hsplits := s.splitsAt_answerTables s.pageLimit ∅ hnodup fun _ _ => rfl
  refine ⟨fun table => (keys table).take (share s.pageLimit tables table),
    fun table => (keys table).drop (share s.pageLimit tables table), ?_, ?_, ?_, ?_, ?_⟩
  · intro table wanted h
    rw [List.take_append_drop, hkeys h]
  · intro table wanted h
    rw [hkeys h]
    exact (hsplits _ (hmem.mp h)).found
  · intro table wanted h
    rw [hkeys h]
    exact (hsplits _ (hmem.mp h)).left
  · intro table hnone
    refine s.answerTables_of_not_mem s.pageLimit ∅ ?_
    rintro p hp rfl
    rw [hmem.mpr hp] at hnone
    cases hnone
  · have hshare : ∀ p ∈ tables, ((keys p.1).take (share s.pageLimit tables p.1)).length =
        share s.pageLimit tables p.1 := by
      intro p hp
      rw [hkeys (hmem.mpr hp), List.length_take, Nat.min_eq_left (share_le _ hnodup p hp)]
    calc (r.tables.keys.map fun table =>
          ((keys table).take (share s.pageLimit tables table)).length).sum
        = (tables.map fun p => share s.pageLimit tables p.1).sum := by
          rw [← List.map_congr_left hshare, Entries.keys, List.map_map]
          exact (horder.map _).symm.sum_eq
      _ = allowed s.pageLimit r.keyCount := by
          rw [sum_share _ hnodup, r.keyCount_eq_sum, (horder.map _).sum_eq]

/-- **A reply parts the keys of its request, whatever the order of the tables**: every key is looked
up or left, as many are looked up as the page limit allows, no table is reported without keys, and
keys are left exactly if there are more than the limit; if there are not, no table is reported. -/
theorem Answers.parts (h : s.Answers r response) :
    (∃ seen left, s.Parts r response seen left) ∧
      (∀ table left, (response.unprocessed.getD ∅).find? table = some left → left.keys ≠ []) ∧
      (response.hasUnprocessed = true ↔
        ∃ limit, s.pageLimit = some limit ∧ limit < r.keyCount) ∧
      (response.hasUnprocessed = false → response.unprocessed = none) := by
  obtain ⟨tables, horder, rfl⟩ := h
  have hnodup : (tables.map (·.1)).Nodup :=
    (horder.map Prod.fst).nodup_iff.mpr r.tables.keys_nodup
  have hkeys : ∀ table left,
      ((s.answerTables s.pageLimit tables ∅).unprocessed.getD ∅).find? table = some left →
        left.keys ≠ [] := by
    intro table left h
    obtain ⟨wanted, -, hlt, rfl⟩ := (s.reported_iff _ hnodup).mp h
    simpa using hlt
  refine ⟨parts_answerTables horder hnodup, hkeys, ?_, fun hnone => ?_⟩
  · have hcount : r.keyCount = (tables.map fun p => p.2.keys.length).sum := by
      rw [r.keyCount_eq_sum, (horder.map _).sum_eq]
    rw [hcount, ← exists_share_lt_iff _ hnodup, BatchResponse.hasUnprocessed_iff]
    constructor
    · rintro ⟨table, left, h, -⟩
      obtain ⟨wanted, hp, hlt, -⟩ := (s.reported_iff _ hnodup).mp h
      exact ⟨_, hp, hlt⟩
    · rintro ⟨p, hp, hlt⟩
      exact ⟨p.1, _, (s.reported_iff _ hnodup).mpr ⟨p.2, hp, hlt, rfl⟩, by simpa using hlt⟩
  · refine Option.eq_none_iff_forall_ne_some.mpr fun d hd => ?_
    obtain ⟨table, left, h⟩ := s.exists_reported s.pageLimit ∅ nofun d hd
    have hleft := (congrArg (fun u => (Option.getD u ∅).find? table) hd).trans h
    have hreported := (BatchResponse.hasUnprocessed_iff _).mpr
      ⟨table, left, hleft, hkeys table left hleft⟩
    rw [hnone] at hreported
    cases hreported

/-- Three tables, the last of them first, and a limit that is used up where the second ends. -/
theorem parts_used_up_between :
    let key : String → NativeKey := fun id => Entries.insert ∅ "id" (.leaf (.text id))
    let strong : ReadOptions := { consistentRead := some true }
    let s : Store := { tables := Entries.insert ∅ "c" [key "5"], pageLimit := some 3 }
    let r : BatchRequest := { tables := .ofList [
      ("a", { keys := [key "1", key "2"], options := strong }), ("b", { keys := [key "3"] }),
      ("c", { keys := [key "4", key "5"] })] }
    let response := s.answerTables (some 3) r.tables.toList.reverse ∅
    s.Answers r response ∧ 3 < r.keyCount ∧ response.itemsFor "c" = [key "5"] ∧
      ((response.unprocessed.getD ∅).toList.map fun p =>
        (p.1, p.2.keys, p.2.options.consistentRead)) = [("a", [key "1", key "2"], some true)] ∧
      (∃ seen left, s.Parts r response seen left) ∧ response.hasUnprocessed = true := by
  intro key strong s r response
  have h : s.Answers r response := ⟨r.tables.toList.reverse, List.reverse_perm _, rfl⟩
  have hmore : 3 < r.keyCount := by decide +kernel
  obtain ⟨hparts, -, hiff, -⟩ := h.parts
  exact ⟨h, hmore, by decide +kernel, by decide +kernel, hparts, hiff.mpr ⟨3, rfl, hmore⟩⟩

end Store

end ItemStore
