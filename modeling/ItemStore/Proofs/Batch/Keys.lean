/-
The keys of a request, counted.

Keys may be asked for more than once and of several tables, so what a request asks for is a
multiset of keys with their tables.  A reply is honest about what it leaves if that is a
part of the request (`Transport.Splits`): the rest has then been answered.  The store in
memory is honest in this sense, whatever it is asked and however few keys it looks up in a
call.
-/
import Mathlib.Algebra.Order.Group.Multiset
import ItemStore.Store

namespace ItemStore

/-- The keys listed for one table. -/
def TableRequest.wanted (table : String) (r : TableRequest) : Multiset (String × NativeKey) :=
  ↑(r.keys.map fun key => (table, key))

/-- The keys listed table by table. -/
def keysOf (tables : List (String × TableRequest)) : Multiset (String × NativeKey) :=
  (tables.map fun p => p.2.wanted p.1).sum

@[simp] theorem keysOf_nil : keysOf [] = 0 := rfl

@[simp] theorem keysOf_cons (p : String × TableRequest) (tables : List (String × TableRequest)) :
    keysOf (p :: tables) = p.2.wanted p.1 + keysOf tables := by
  simp [keysOf]

namespace BatchRequest

/-- The keys a request asks for. -/
def wanted (r : BatchRequest) : Multiset (String × NativeKey) :=
  keysOf r.tables.toList

@[simp] theorem wanted_empty : (∅ : BatchRequest).wanted = 0 := rfl

theorem card_wanted (r : BatchRequest) : r.wanted.card = r.keyCount := by
  rw [wanted, keyCount, Entries.values]
  induction r.tables.toList with
  | nil => rfl
  | cons p tables ih =>
      rw [keysOf_cons, Multiset.card_add, ih]
      simp [TableRequest.wanted]

/-- No key is asked for if none is counted. -/
theorem isEmpty_iff (r : BatchRequest) : r.isEmpty = true ↔ r.wanted = 0 := by
  rw [isEmpty, decide_eq_true_iff, ← card_wanted, Multiset.card_eq_zero]

/-- Listing keys for a table asks for these and no more than was asked for before. -/
theorem wanted_insert_le (tables : Dict TableRequest) (table : String) (r : TableRequest) :
    wanted ⟨tables.insert table r⟩ ≤ wanted ⟨tables⟩ + r.wanted table := by
  have hinsert : ∀ {lo : Option String} (d : Entries TableRequest lo) (h : Beyond lo table),
      keysOf (d.insertBeyond table r h).toList ≤ keysOf d.toList + r.wanted table := by
    intro lo d
    induction d with
    | nil =>
        intro h
        simp [Entries.insertBeyond, Entries.toList]
    | cons key beyond value rest ih =>
        intro h
        rw [Entries.insertBeyond]
        split
        · simp only [Entries.toList, keysOf_cons]
          rw [add_comm]
        · split
          · simp only [Entries.toList, keysOf_cons]
            rw [add_assoc]
            exact add_le_add_right (ih _) _
          · rename_i hlt hgt
            have he : key = table :=
              String.le_antisymm (String.not_lt.1 hlt) (String.not_lt.1 hgt)
            subst he
            simp only [Entries.toList, keysOf_cons]
            rw [add_comm, add_assoc]
            exact Multiset.le_add_left _ _
  exact hinsert tables .of_none

end BatchRequest

namespace BatchResponse

/-- The keys a reply leaves. -/
def leftOver (r : BatchResponse) : Multiset (String × NativeKey) :=
  (r.unprocessed.map fun tables => BatchRequest.wanted ⟨tables⟩).getD 0

/-- The next request asks for what is left; if it would ask for nothing there is none. -/
theorem wanted_next (r : BatchResponse) : (r.next?.getD ∅).wanted = r.leftOver := by
  rw [next?, leftOver]
  cases r.unprocessed with
  | none => rfl
  | some tables =>
      rw [Option.map_some, Option.map_some, Option.getD_some, Option.filter_some]
      by_cases hempty : (BatchRequest.mk tables).isEmpty = true
      · rw [if_neg (by simp [hempty]), (BatchRequest.isEmpty_iff _).mp hempty]
        rfl
      · rw [if_pos (by simpa using hempty)]
        rfl

end BatchResponse

/-- Every successful reply leaves a part of what was asked for; the rest is answered. -/
def Transport.Splits {σ : Type} (t : Transport σ) : Prop :=
  ∀ store request store' response, t.reply store request = (store', .ok response) →
    response.leftOver ≤ request.wanted

namespace Store

/-- Leaving some of the keys of a table leaves no more than were asked for. -/
theorem leftOver_leave_le (response : BatchResponse) (items : Dict (List NativeItem))
    (table : String) (r : TableRequest) {left : List NativeKey} (hleft : left.Sublist r.keys) :
    BatchResponse.leftOver {
      items
      unprocessed :=
        if left.isEmpty then response.unprocessed
        else some ((response.unprocessed.getD ∅).insert table { r with keys := left }) } ≤
      response.leftOver + r.wanted table := by
  by_cases hempty : left.isEmpty = true
  · rw [if_pos hempty]
    exact Multiset.le_add_right _ _
  · rw [if_neg hempty]
    have hbefore : response.leftOver = BatchRequest.wanted ⟨response.unprocessed.getD ∅⟩ := by
      rw [BatchResponse.leftOver]
      cases response.unprocessed <;> rfl
    have hpart : TableRequest.wanted table { r with keys := left } ≤ r.wanted table :=
      Multiset.coe_le.mpr (hleft.map _).subperm
    rw [hbefore]
    exact (BatchRequest.wanted_insert_le _ table _).trans (add_le_add_right hpart _)

/-- Answering tables leaves no key that was not left before or asked for. -/
theorem leftOver_answerTables (s : Store) (tables : List (String × TableRequest)) :
    ∀ (budget : Option Nat) (response : BatchResponse),
      (s.answerTables budget tables response).leftOver ≤ response.leftOver + keysOf tables := by
  induction tables with
  | nil =>
      intro budget response
      simp [answerTables]
  | cons p tables ih =>
      obtain ⟨table, r⟩ := p
      intro budget response
      rw [answerTables.eq_def, keysOf_cons, ← add_assoc]
      refine (ih _ _).trans (add_le_add_left ?_ _)
      exact leftOver_leave_le response _ table r (List.drop_sublist _ _)

/-- **The store in memory splits every request**, however much it looks up. -/
theorem transport_splits : transport.Splits := by
  intro s request s' response h
  have hreply : s.reply request = (s', .ok response) := h
  rw [reply] at hreply
  split at hreply
  · cases hreply
  · cases hreply
    have := leftOver_answerTables s request.tables.toList s.pageLimit ∅
    rwa [show (∅ : BatchResponse).leftOver = 0 from rfl, zero_add] at this

end Store

end ItemStore
