/-
Names reserved in between.

A reservation is for the conditions that come after it: none of them is given a placeholder that is
reserved, and no later call takes the reservation back (`call_keeps`).  What was bound before it
stays bound, reserved or not.  So a name that is reserved at some point stands for a value of this
request at the end just when it did so at that point (`bound_iff_bound_when_reserved`), and a
reservation that is to hold comes before the conditions.
-/
import ItemStore.Proofs.Conjunction

namespace ItemStore.Builder

open Placeholder

/-- What a builder is asked to do. -/
inductive Call
  | reserve (names : List String)
  | add (c : Condition)

/-- Does what is asked. -/
def call (b : Builder) : Call → Except Error Builder
  | .reserve names => .ok (b.reserve names)
  | .add c => b.add c

/-- Does all that is asked, in order. -/
def callAll (b : Builder) (calls : List Call) : Except Error Builder :=
  calls.foldlM call b

variable {b b' : Builder} {q : String}

/-- What a condition binds that was not bound before is not reserved. -/
theorem mem_keys_push_iff (hq : q ∈ b.reserved) (path : String) (t : Test) :
    q ∈ (b.push path t).values.keys ↔ q ∈ b.values.keys := by
  rw [values_push, mem_keys_union_ofList]
  refine ⟨fun h => h.resolve_right fun hnew => ?_, Or.inl⟩
  exact forValues_not_mem _ _ _ q hnew (List.mem_append_left _ hq)

/-- **A call leaves a reserved name as it is**: reserved, and bound only if it was. -/
theorem call_keeps {c : Call} (hq : q ∈ b.reserved) (h : b.call c = .ok b') :
    q ∈ b'.reserved ∧ (q ∈ b'.values.keys ↔ q ∈ b.values.keys) := by
  cases c with
  | reserve names =>
      cases h
      exact ⟨List.mem_append_left _ hq, Iff.rfl⟩
  | add c =>
      obtain ⟨t, -, rfl⟩ := eq_push_of_condition h
      exact ⟨hq, mem_keys_push_iff hq c.path t⟩

/-- Any calls do. -/
theorem callAll_keeps (calls : List Call) : ∀ {b : Builder}, q ∈ b.reserved →
    b.callAll calls = .ok b' → q ∈ b'.reserved ∧ (q ∈ b'.values.keys ↔ q ∈ b.values.keys) := by
  induction calls with
  | nil =>
      intro b hq h
      cases h
      exact ⟨hq, Iff.rfl⟩
  | cons c calls ih =>
      intro b hq h
      rw [callAll, List.foldlM_cons] at h
      obtain ⟨b₁, hfirst, hrest⟩ := bind_eq_ok.mp h
      obtain ⟨hreserved, hfirst⟩ := call_keeps hq hfirst
      obtain ⟨hlast, hrest⟩ := ih hreserved hrest
      exact ⟨hlast, hrest.trans hfirst⟩

/-- **A reserved name is bound at the end just when it was bound when it was reserved**, whatever
was asked before and after. -/
theorem bound_iff_bound_when_reserved {before after : List Call} {names : List String}
    (h : (∅ : Builder).callAll (before ++ .reserve names :: after) = .ok b) :
    ∃ b₀, (∅ : Builder).callAll before = .ok b₀ ∧
      ∀ e, b.build = some e → ∀ q ∈ names, q ∈ e.values.keys ↔ q ∈ b₀.values.keys := by
  rw [callAll, List.foldlM_append] at h
  obtain ⟨b₀, hbefore, h⟩ := bind_eq_ok.mp h
  rw [List.foldlM_cons] at h
  refine ⟨b₀, hbefore, fun e hbuild q hq => ?_⟩
  have hreserved : q ∈ (b₀.reserve names).reserved := List.mem_append_right _ hq
  obtain ⟨-, hbound⟩ := callAll_keeps after hreserved h
  rw [build] at hbuild
  split at hbuild
  · cases hbuild
  · cases hbuild
    exact hbound

/-- Two reservations around a condition: the names of the first are kept clear of, and of the second
the one that was free. -/
theorem bound_iff_bound_when_reserved_around :
    let first : Condition :=
      { path := "id", operator := .compare .ne, value := some (.text "x") }
    let second : Condition :=
      { path := "id", operator := .between, value := some (.ofInt 1), value2 := some (.ofInt 2) }
    let before : List Call := [.reserve [":id"], .add first]
    let names := [":id_2", ":id_3"]
    ∃ b e, (∅ : Builder).callAll (before ++ .reserve names :: [.add second]) = .ok b ∧
      b.build = some e ∧ e.statement = "#id <> :id_2 AND #id BETWEEN :id_4 AND :id_5" ∧
      ∃ b₀, (∅ : Builder).callAll before = .ok b₀ ∧
        ∀ q ∈ names, q ∈ e.values.keys ↔ q ∈ b₀.values.keys := by
  intro first second before names
  let b : Builder := {
    fragments := ["#id <> :id_2", "#id BETWEEN :id_4 AND :id_5"]
    names := .ofList [("#id", "id")]
    values := .ofList [(":id_2", .text "x"), (":id_4", .ofInt 1), (":id_5", .ofInt 2)]
    reserved := [":id", ":id_2", ":id_3"] }
  have hcalls : (∅ : Builder).callAll (before ++ .reserve names :: [.add second]) = .ok b := by
    decide +kernel
  obtain ⟨b₀, hbefore, hbound⟩ := bound_iff_bound_when_reserved hcalls
  exact ⟨b, b.joined, hcalls, rfl, by decide +kernel, b₀, hbefore, hbound _ rfl⟩

/-- A name that is reserved after it was given to a value is not kept clear of. -/
theorem bound_though_reserved_later :
    let c : Condition := { path := "id", operator := .compare .ne, value := some (.text "x") }
    ∃ b e, (∅ : Builder).callAll [.add c, .reserve [":id"]] = .ok b ∧ b.build = some e ∧
      e.statement = "#id <> :id" ∧ ":id" ∈ e.values.keys := by
  intro c
  let b : Builder := {
    fragments := ["#id <> :id"], names := .ofList [("#id", "id")]
    values := .ofList [(":id", .text "x")], reserved := [":id"] }
  exact ⟨b, b.joined, by decide +kernel, rfl, by decide +kernel, by decide +kernel⟩

end ItemStore.Builder
