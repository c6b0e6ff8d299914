/-
Canonical texts in the order of time.

The store has no dates: it is given canonical texts, and compares them character by character.  What
it finds is what comparing the instants would have found, to the millisecond, as long as years have
four digits.

A canonical text is a form (`toList_canonical`), and forms are in the order of the numbers they are
filled in with (`Form.strictMonoOn_fill`).  So the fields of an instant have to be in the order of
time, and that is seen from the back: seconds and milliseconds decide within a minute, where a leap
second is the sixtieth (`second_lt`); hours and minutes decide within a day (`minute_lt`); and days
are in the order of the calendar (`CalendarDay.ofDays_lt_ofDays`).
-/
import ItemStore.Expression.Test
import ItemStore.Proofs.Calendar
import ItemStore.Proofs.FixedWidth

namespace ItemStore

namespace Instant

variable {t u v : Instant}

/-! ### The order of time -/

/-- Of any two instants one is not later than the other. -/
instance : LinearOrder Instant where
  le_refl _ := .inr ⟨rfl, le_rfl⟩
  le_trans t u v (h : _ ∨ _) (h' : _ ∨ _) := by
    change _ ∨ _
    omega
  le_antisymm t u (h : _ ∨ _) (h' : _ ∨ _) := by
    cases t
    cases u
    congr 1 <;> dsimp only at h h' <;> omega
  le_total t u := by
    change (_ ∨ _) ∨ _ ∨ _
    omega
  toDecidableLE := inferInstance

theorem lt_iff : t < u ↔ t.seconds < u.seconds ∨ t.seconds = u.seconds ∧ t.nanos < u.nanos := by
  rw [← not_le]
  change ¬(_ ∨ _) ↔ _
  omega

/-- The instant to the millisecond, cut off. -/
def truncated (t : Instant) : Instant where
  seconds := t.seconds
  nanos := t.nanos / 1000000 * 1000000
  bounded := by
    have := t.bounded
    omega

theorem monotone_truncated : Monotone truncated := by
  intro t u (h : _ ∨ _)
  change _ ∨ _
  dsimp only [truncated]
  omega

theorem truncated_truncated (t : Instant) : t.truncated.truncated = t.truncated := by
  simp only [truncated, Nat.mul_div_cancel _ (by decide : 0 < 1000000)]

theorem truncated_lt_truncated_iff : t.truncated < u.truncated ↔
    t.seconds < u.seconds ∨
      t.seconds = u.seconds ∧ t.nanos / 1000000 < u.nanos / 1000000 := by
  rw [lt_iff]
  dsimp only [truncated]
  omega

/-! ### Fields in the order of time -/

/-- In one minute the second decides, a leap second being the sixtieth, and then the fraction. -/
theorem second_lt (hminute : t.seconds / 60 = u.seconds / 60) (h : t.truncated < u.truncated) :
    t.second < u.second ∨
      t.second = u.second ∧ t.fraction / 1000000 < u.fraction / 1000000 := by
  have ht := t.bounded
  have hu := u.bounded
  rw [truncated_lt_truncated_iff] at h
  unfold second secondOfDay inLeapSecond fraction
  simp only [decide_eq_true_eq]
  split <;> split <;> omega

/-- On one day the hour decides, and then the minute. -/
theorem minute_lt (hday : t.seconds / 86400 = u.seconds / 86400)
    (h : t.seconds / 60 < u.seconds / 60) :
    t.hour < u.hour ∨ t.hour = u.hour ∧ t.minute < u.minute := by
  unfold hour minute secondOfDay
  omega

/-- The numbers of a canonical text. -/
def fields (t : Instant) : List Nat :=
  [t.day.year.toNat, t.day.month, t.day.day, t.hour, t.minute, t.second, t.fraction / 1000000]

/-- The year has a text of four digits. -/
def HasFourDigitYear (t : Instant) : Prop :=
  0 ≤ t.day.year ∧ t.day.year ≤ 9999
  deriving Decidable

/-- **The fields of an instant are in the order of time**, to the millisecond. -/
theorem fields_lt (ht : t.HasFourDigitYear) (h : t.truncated < u.truncated) :
    t.fields < u.fields := by
  have hseconds : t.seconds ≤ u.seconds := by
    rw [truncated_lt_truncated_iff] at h
    omega
  simp only [fields, List.cons_lt_cons_iff]
  rcases (Int.ediv_le_ediv (by decide) hseconds : t.seconds / 86400 ≤ _).lt_or_eq with hday | hday
  · rcases CalendarDay.ofDays_lt_ofDays hday with hyear | ⟨hyear, hmonth | ⟨hmonth, hday⟩⟩
    · have hpositive := ht.1
      unfold day at hpositive ⊢
      exact .inl (by omega)
    · exact .inr ⟨congrArg Int.toNat hyear, .inl hmonth⟩
    · exact .inr ⟨congrArg Int.toNat hyear, .inr ⟨hmonth, .inl hday⟩⟩
  rw [show t.day = u.day from congrArg CalendarDay.ofDays hday]
  refine .inr ⟨rfl, .inr ⟨rfl, .inr ⟨rfl, ?_⟩⟩⟩
  rcases (Int.ediv_le_ediv (by decide) hseconds : t.seconds / 60 ≤ _).lt_or_eq with hmin | hmin
  · rcases minute_lt hday hmin with hhour | ⟨hhour, hminute⟩
    · exact .inl hhour
    · exact .inr ⟨hhour, .inl hminute⟩
  obtain ⟨hhour, hminute⟩ : t.hour = u.hour ∧ t.minute = u.minute := by
    unfold hour minute secondOfDay
    omega
  rcases second_lt hmin h with hsecond | ⟨hsecond, hplaces⟩
  · exact .inr ⟨hhour, .inr ⟨hminute, .inl hsecond⟩⟩
  · exact .inr ⟨hhour, .inr ⟨hminute, .inr ⟨hsecond, .inl hplaces⟩⟩⟩

/-! ### Canonical texts -/

/-- The form of a canonical text. -/
def form : Form :=
  [(4, '-'), (2, '-'), (2, 'T'), (2, ':'), (2, ':'), (2, '.'), (3, 'Z')]

/-- The fields of an instant have room in the form. -/
theorem fits_fields (h : t.HasFourDigitYear) : form.Fits t.fields := by
  have hyear : t.day.year.toNat < 10 ^ 4 := by
    have := h.2
    omega
  have hmonth : t.day.month < 10 ^ 2 :=
    (CalendarDay.month_ofDays_le _).trans_lt (by decide)
  have hday : t.day.day < 10 ^ 2 := (CalendarDay.day_ofDays_le _).trans_lt (by decide)
  have hhour : t.hour < 10 ^ 2 := by
    unfold hour secondOfDay
    omega
  have hminute : t.minute < 10 ^ 2 := (Nat.mod_lt _ (by decide)).trans (by decide)
  have hsecond : t.second < 10 ^ 2 := by
    unfold second
    split <;> omega
  have hfraction : t.fraction / 1000000 < 10 ^ 3 := by
    unfold fraction
    omega
  exact .cons ⟨by decide, hyear⟩ <| .cons ⟨by decide, hmonth⟩ <| .cons ⟨by decide, hday⟩ <|
    .cons ⟨by decide, hhour⟩ <| .cons ⟨by decide, hminute⟩ <| .cons ⟨by decide, hsecond⟩ <|
    .cons ⟨by decide, hfraction⟩ .nil

/-- A canonical text is the form filled in with the fields of the instant. -/
theorem toList_canonical (h : t.HasFourDigitYear) : t.canonical.toList = form.fill t.fields := by
  have hyear : yearText t.day.year = padded 4 t.day.year.toNat := if_pos h
  rw [canonical, textWith, String.toList_ofList, hyear]
  simp only [form, fields, Form.fill, List.append_assoc, List.cons_append]

/-- An instant has the canonical text of its millisecond. -/
theorem canonical_truncated (t : Instant) : t.truncated.canonical = t.canonical := by
  have hleap : t.truncated.inLeapSecond = t.inLeapSecond := by
    refine decide_eq_decide.mpr ?_
    dsimp only [truncated]
    omega
  have hfraction : t.truncated.fraction / 1000000 = t.fraction / 1000000 := by
    simp only [fraction, truncated]
    omega
  have hsecond : t.truncated.second = t.second := by
    rw [second, second, hleap]
    rfl
  rw [canonical, canonical, hfraction, textWith, textWith, hsecond]
  rfl

/-- **Canonical texts are in the order of time**, among instants to the millisecond. -/
theorem strictMonoOn_canonical :
    StrictMonoOn canonical {t | t.HasFourDigitYear ∧ t.truncated = t} := by
  rintro t ⟨ht, htruncated⟩ u ⟨hu, hutruncated⟩ h
  rw [String.lt_iff_toList_lt, toList_canonical ht, toList_canonical hu]
  rw [← htruncated, ← hutruncated] at h
  exact form.strictMonoOn_fill (fits_fields ht) (fits_fields hu) (fields_lt ht h)

/-- The millisecond of an instant that has a year of four digits is one as well. -/
theorem truncated_mem (h : t.HasFourDigitYear) :
    t.truncated ∈ {t | HasFourDigitYear t ∧ t.truncated = t} :=
  ⟨h, t.truncated_truncated⟩

theorem canonical_lt_iff (ht : t.HasFourDigitYear) (hu : u.HasFourDigitYear) :
    t.canonical < u.canonical ↔ t.truncated < u.truncated := by
  rw [← canonical_truncated t, ← canonical_truncated u]
  exact strictMonoOn_canonical.lt_iff_lt (truncated_mem ht) (truncated_mem hu)

theorem canonical_le_iff (ht : t.HasFourDigitYear) (hu : u.HasFourDigitYear) :
    t.canonical ≤ u.canonical ↔ t.truncated ≤ u.truncated := by
  rw [← not_lt, ← not_lt, canonical_lt_iff hu ht]

theorem canonical_eq_iff (ht : t.HasFourDigitYear) (hu : u.HasFourDigitYear) :
    t.canonical = u.canonical ↔ t.truncated = u.truncated := by
  rw [le_antisymm_iff, le_antisymm_iff, canonical_le_iff ht hu, canonical_le_iff hu ht]

end Instant

/-! ### Conditions on dates -/

/-- What a comparison asks of two things that have an order. -/
def Comparison.Holds {α : Type} [LinearOrder α] : Comparison → α → α → Prop
  | eq, x, y => x = y
  | ne, x, y => x ≠ y
  | lt, x, y => x < y
  | le, x, y => x ≤ y
  | gt, x, y => x > y
  | ge, x, y => x ≥ y

/-- The answer of the store where a text is asked for by texts: it compares them character by
character. -/
inductive Test.Admits : Test → Value → Prop
  | compare {c : Comparison} {operand x : String} (h : c.Holds x operand) :
      Admits (.compare c (.leaf (.text operand))) (.leaf (.text x))
  | between {low high x : String} (hlow : low ≤ x) (hhigh : x ≤ high) :
      Admits (.between (.leaf (.text low)) (.leaf (.text high))) (.leaf (.text x))

namespace Test

theorem admits_compare_iff {c : Comparison} {operand x : String} :
    (compare c (.leaf (.text operand))).Admits (.leaf (.text x)) ↔ c.Holds x operand :=
  ⟨fun | .compare h => h, .compare⟩

theorem admits_between_iff {low high x : String} :
    (between (.leaf (.text low)) (.leaf (.text high))).Admits (.leaf (.text x)) ↔
      low ≤ x ∧ x ≤ high :=
  ⟨fun | .between hlow hhigh => ⟨hlow, hhigh⟩, fun ⟨hlow, hhigh⟩ => .between hlow hhigh⟩

end Test

namespace Instant

variable {t u v : Instant}

/-- Canonical texts compare as the instants do, to the millisecond. -/
theorem holds_canonical_iff (ht : t.HasFourDigitYear) (hu : u.HasFourDigitYear) (c : Comparison) :
    c.Holds t.canonical u.canonical ↔ c.Holds t.truncated u.truncated := by
  cases c with
  | eq => exact canonical_eq_iff ht hu
  | ne => exact (canonical_eq_iff ht hu).not
  | lt => exact canonical_lt_iff ht hu
  | le => exact canonical_le_iff ht hu
  | gt => exact canonical_lt_iff hu ht
  | ge => exact canonical_le_iff hu ht

/-- **Canonical texts sort chronologically**, as long as years have four digits: an earlier instant
has no greater text, two instants have one text if they lie in one millisecond, and a condition that
compares dates, or asks for one between two others, is answered as the instants themselves would
answer it, to the millisecond. -/
theorem canonical_chronological (ht : t.HasFourDigitYear) (hu : u.HasFourDigitYear)
    (hv : v.HasFourDigitYear) :
    (t ≤ u → t.canonical ≤ u.canonical) ∧
      (t.canonical = u.canonical ↔ t.truncated = u.truncated) ∧
      (∀ c, ∃ test, Test.ofOperands (.compare c) (some (.date u)) none = .ok test ∧
        (test.Admits (Value.date t).normalized ↔ c.Holds t.truncated u.truncated)) ∧
      ∃ test, Test.ofOperands .between (some (.date u)) (some (.date v)) = .ok test ∧
        (test.Admits (Value.date t).normalized ↔
          u.truncated ≤ t.truncated ∧ t.truncated ≤ v.truncated) := by
  refine ⟨fun h => (canonical_le_iff ht hu).mpr (monotone_truncated h), canonical_eq_iff ht hu,
    fun c => ⟨_, rfl, ?_⟩, _, rfl, ?_⟩
  · exact Test.admits_compare_iff.trans (holds_canonical_iff ht hu c)
  · exact Test.admits_between_iff.trans
      (and_congr (canonical_le_iff hu ht) (canonical_le_iff ht hv))

/-- The leap second at the end of 2016 comes before the new year, and after the first day of the
year 0. -/
theorem canonical_chronological_leap_second :
    let first : Instant := ⟨-62167219200, 0, by decide⟩
    let leap : Instant := ⟨1483228799, 1500600000, by decide⟩
    let newYear : Instant := ⟨1483228800, 0, by decide⟩
    first.HasFourDigitYear ∧ leap.HasFourDigitYear ∧ newYear.HasFourDigitYear ∧
      [first, leap, newYear].map canonical =
        ["0000-01-01T00:00:00.000Z", "2016-12-31T23:59:60.500Z", "2017-01-01T00:00:00.000Z"] ∧
      leap.canonical ≤ newYear.canonical ∧ leap.canonical ≠ newYear.canonical ∧
      (∃ test, Test.ofOperands (.compare .lt) (some (.date newYear)) none = .ok test ∧
        test.Admits (Value.date leap).normalized) ∧
      ∃ test, Test.ofOperands .between (some (.date first)) (some (.date newYear)) = .ok test ∧
        test.Admits (Value.date leap).normalized := by
  intro first leap newYear
  have hfirst : first.HasFourDigitYear := by decide
  have hleap : leap.HasFourDigitYear := by decide
  have hnewYear : newYear.HasFourDigitYear := by decide
  obtain ⟨hle, heq, hcompare, -⟩ := canonical_chronological hleap hnewYear hnewYear
  obtain ⟨-, -, -, between, hbetween, hadmits⟩ := canonical_chronological hleap hfirst hnewYear
  obtain ⟨compare, hlt, hadmitsLt⟩ := hcompare .lt
  have hbefore : leap.truncated < newYear.truncated := by decide
  have hafter : first.truncated ≤ leap.truncated := by decide
  refine ⟨hfirst, hleap, hnewYear, by decide +kernel, hle (by decide), ?_,
    ⟨compare, hlt, hadmitsLt.mpr hbefore⟩, between, hbetween, hadmits.mpr ⟨hafter, hbefore.le⟩⟩
  exact fun h => hbefore.ne (heq.mp h)

end Instant

end ItemStore
