/-
Numbers in a fixed number of digits.

A number that its field has room for is filled up with zeros to the width of the field, so that the
texts of a field are all of one length.  Among texts of one length the first difference decides, and
the first digit that differs is the most significant one: they are in the order of their numbers.

`padded_succ` takes the last digit off a text, and the order of one field is an induction along it.
`Form.strictMonoOn_fill` is the induction along a form: a row of fields, each closed by a mark that
all texts of the form share, so that the first field that differs decides.
-/
import Mathlib.Data.String.Basic
import Mathlib.Order.Monotone.Basic
import ItemStore.Instant.Text

namespace ItemStore

/-! ### Texts of one length -/

/-- The first half decides, where the first halves are of one length. -/
theorem append_lt_append_iff {α : Type} [LinearOrder α] :
    ∀ {xs ys : List α}, xs.length = ys.length → ∀ (xs' ys' : List α),
      (xs ++ xs' < ys ++ ys' ↔ xs < ys ∨ xs = ys ∧ xs' < ys')
  | [], [], _, xs', ys' => by simp
  | x :: xs, y :: ys, h, xs', ys' => by
      rw [List.cons_append, List.cons_append, List.cons_lt_cons_iff, List.cons_lt_cons_iff,
        append_lt_append_iff (Nat.succ.inj h), List.cons.injEq, and_or_left, or_assoc, and_assoc]

/-! ### One field -/

theorem digitChar_lt {m n : Nat} (h : m < n) (hn : n < 10) : m.digitChar < n.digitChar := by
  have hm := Nat.toNat_digitChar_of_lt_ten (h.trans hn)
  have hn := Nat.toNat_digitChar_of_lt_ten hn
  rw [Char.lt_def, UInt32.lt_iff_toNat_lt]
  change m.digitChar.toNat < n.digitChar.toNat
  omega

namespace Instant

variable {w m n : Nat}

theorem padded_one (h : n < 10) : padded 1 n = [n.digitChar] := by
  rw [padded, Nat.toDigits_of_lt_base h]
  rfl

/-- The last digit of a text stands for the remainder. -/
theorem padded_succ (hw : 0 < w) (n : Nat) :
    padded (w + 1) n = padded w (n / 10) ++ [(n % 10).digitChar] := by
  rw [padded, padded, Nat.toDigits_eq_if (by decide : 1 < 10)]
  split
  · rename_i h
    -- A number of one digit leaves a zero behind, and the filling makes up for it.
    obtain ⟨v, rfl⟩ : ∃ v, w = v + 1 := ⟨w - 1, by omega⟩
    rw [Nat.div_eq_of_lt h, Nat.mod_eq_of_lt h, Nat.toDigits_zero, List.length_singleton,
      List.length_singleton, Nat.add_sub_cancel, Nat.add_sub_cancel, List.replicate_succ']
  · rw [List.length_append, List.length_singleton, Nat.add_sub_add_right, List.append_assoc]

/-- A number that there is room for has a text as long as its field is wide. -/
theorem length_padded (hw : 0 < w) (h : n < 10 ^ w) : (padded w n).length = w := by
  have hle := (Nat.length_toDigits_le_iff (b := 10) (by decide) hw).mpr h
  rw [padded, List.length_append, List.length_replicate]
  exact Nat.sub_add_cancel hle

/-- The texts of one field are in the order of their numbers. -/
theorem padded_lt_padded (hw : 0 < w) (h : m < n) (hn : n < 10 ^ w) :
    padded w m < padded w n := by
  induction w, hw using Nat.le_induction generalizing m n with
  | base =>
      rw [padded_one (h.trans hn), padded_one hn, List.cons_lt_cons_iff]
      exact .inl (digitChar_lt h hn)
  | succ w hw ih =>
      have hn' : n / 10 < 10 ^ w := Nat.div_lt_of_lt_mul (by rwa [← Nat.pow_succ'])
      have hm' : m / 10 < 10 ^ w := (Nat.div_le_div_right h.le).trans_lt hn'
      rw [padded_succ hw, padded_succ hw,
        append_lt_append_iff ((length_padded hw hm').trans (length_padded hw hn').symm)]
      rcases (Nat.div_le_div_right h.le : m / 10 ≤ n / 10).lt_or_eq with hlt | heq
      · exact .inl (ih hlt hn')
      · refine .inr ⟨by rw [heq], List.cons_lt_cons_iff.mpr (.inl (digitChar_lt ?_ ?_))⟩ <;> omega

/-! ### A row of fields -/

/-- A form to fill in: the widths of its fields, each with the mark after it. -/
abbrev Form := List (Nat × Char)

/-- The form filled in with numbers. -/
def Form.fill : Form → List Nat → List Char
  | (w, mark) :: form, n :: ns => padded w n ++ mark :: fill form ns
  | _, _ => []

/-- The numbers fill in the form: each has room in its field. -/
def Form.Fits (form : Form) (ns : List Nat) : Prop :=
  List.Forall₂ (fun field n => 0 < field.1 ∧ n < 10 ^ field.1) form ns

/-- **A form filled in orders as the numbers do**, from the first field to the last. -/
theorem Form.strictMonoOn_fill (form : Form) : StrictMonoOn form.fill {ns | form.Fits ns} := by
  intro ms hms ns hns h
  induction form generalizing ms ns with
  | nil =>
      cases hms
      cases hns
      exact absurd h (lt_irrefl _)
  | cons field form ih =>
      obtain _ | @⟨_, m, _, ms, ⟨hw, hm⟩, hms⟩ := hms
      obtain _ | @⟨_, n, _, ns, ⟨-, hn⟩, hns⟩ := hns
      rw [fill, fill,
        append_lt_append_iff ((length_padded hw hm).trans (length_padded hw hn).symm)]
      rcases List.cons_lt_cons_iff.mp h with hlt | ⟨rfl, hlt⟩
      · exact .inl (padded_lt_padded hw hlt hn)
      · exact .inr ⟨rfl, List.cons_lt_cons_iff.mpr (.inr ⟨rfl, ih hms hns hlt⟩)⟩

end Instant

end ItemStore
