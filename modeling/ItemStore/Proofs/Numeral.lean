/-
Numerals, and the doubles that can hold them.

What a numeral is, and its value, is said here apart from the reader: a sign, digits with a point
among, before or after them, and an exponent (`Writes`).  The reader takes these and nothing else
and reads their value (`writes_iff`).

A double can hold a value if rounding it to the nearest double does not leave their range.  What
would come after the largest double, were there no end to them, is `2^1024`, and what lies halfway
goes to it as the even of the two; so a value is in the range if a double is nearer to it than that
(`InRange`).  The check compares powers only where the magnitude of a numeral, which leaves its
value a factor of ten, does not tell, and decides just this (`isFinite_iff`).
-/
import Mathlib.Algebra.Order.Field.Power
import Mathlib.Algebra.Order.Field.Rat
import Mathlib.Data.List.TakeWhile
import Mathlib.Data.Nat.Digits.Defs
import Mathlib.Tactic.FieldSimp
import Mathlib.Tactic.Linarith
import Mathlib.Tactic.NormNum
import Mathlib.Tactic.Positivity
import Mathlib.Tactic.Ring
import ItemStore.Decimal.Numeral

namespace ItemStore.Decimal

/-! ### What a numeral is -/

/-- Digits, of which there are some. -/
def Digits (cs : List Char) : Prop :=
  cs ≠ [] ∧ ∀ c ∈ cs, c.isDigit = true

/-- The number that digits are the decimal notation of, the last of them the ones. -/
def notated (cs : List Char) : ℕ :=
  Nat.ofDigits 10 (cs.reverse.map fun c => c.toNat - '0'.toNat)

/-- A sign or none, and the factor it is. -/
inductive Sign : List Char → ℤ → Prop
  | none : Sign [] 1
  | plus : Sign ['+'] 1
  | minus : Sign ['-'] (-1)

/-- Digits with or without a point, and their value. -/
inductive Mantissa : List Char → ℚ → Prop
  | whole {ds : List Char} (digits : Digits ds) : Mantissa ds (notated ds)
  | point {ds fs : List Char} (digits : Digits (ds ++ fs)) :
      Mantissa (ds ++ '.' :: fs) (notated ds + notated fs / 10 ^ fs.length)

/-- An exponent or none. -/
inductive Exponent : List Char → ℤ → Prop
  | none : Exponent [] 0
  | some {c : Char} {s ds : List Char} {k : ℤ} (mark : c = 'e' ∨ c = 'E') (sign : Sign s k)
      (digits : Digits ds) : Exponent (c :: (s ++ ds)) (k * notated ds)

/-- A numeral and its value. -/
inductive Writes : List Char → ℚ → Prop
  | mk {s m t : List Char} {k e : ℤ} {x : ℚ} (sign : Sign s k) (mantissa : Mantissa m x)
      (exponent : Exponent t e) : Writes (s ++ (m ++ t)) (k * x * 10 ^ e)

/-- The factor that a sign is read as. -/
def factor (negative : Bool) : ℤ :=
  if negative then -1 else 1

/-- The value of what is read. -/
def Numeral.value (n : Numeral) : ℚ :=
  factor n.negative * n.digits * 10 ^ n.exponent

/-! ### Digits -/

theorem ofDigits_snoc (cs : List Char) (d : Char) :
    ofDigits (cs ++ [d]) = 10 * ofDigits cs + (d.toNat - '0'.toNat) := by
  rw [ofDigits, List.foldl_append]
  rfl

/-- Digits read from the left give the number that they notate. -/
theorem ofDigits_eq_notated (cs : List Char) : ofDigits cs = notated cs := by
  induction cs using List.reverseRecOn with
  | nil => rfl
  | append_singleton cs d ih =>
      rw [ofDigits_snoc, ih, notated, notated, List.reverse_append, List.reverse_singleton,
        List.singleton_append, List.map_cons, Nat.ofDigits_cons, add_comm]

theorem notated_append (cs ds : List Char) :
    notated (cs ++ ds) = notated cs * 10 ^ ds.length + notated ds := by
  rw [notated, List.reverse_append, List.map_append, Nat.ofDigits_append, List.length_map,
    List.length_reverse, mul_comm, add_comm]
  rfl

theorem ne_sign_of_isDigit {c : Char} (h : c.isDigit = true) : c ≠ '-' ∧ c ≠ '+' := by
  constructor
  · rintro rfl
    cases h
  · rintro rfl
    cases h

/-- Digits are taken up to the first character that is none. -/
theorem span_digits {ds rest : List Char} (hds : ∀ c ∈ ds, c.isDigit = true)
    (hrest : ∀ c ∈ rest.head?, c.isDigit = false) :
    (ds ++ rest).takeWhile Char.isDigit = ds ∧ (ds ++ rest).dropWhile Char.isDigit = rest := by
  have hstop : rest.takeWhile Char.isDigit = [] ∧ rest.dropWhile Char.isDigit = rest := by
    cases rest with
    | nil => exact ⟨rfl, rfl⟩
    | cons c rest => simp [hrest c rfl]
  rw [List.takeWhile_append_of_pos hds, List.dropWhile_append_of_pos hds, hstop.1, hstop.2,
    List.append_nil]
  exact ⟨rfl, rfl⟩

/-! ### Reading -/

theorem sign_takeSign (cs : List Char) :
    ∃ s, cs = s ++ (takeSign cs).2 ∧ Sign s (factor (takeSign cs).1) := by
  unfold takeSign
  split
  · exact ⟨['-'], rfl, .minus⟩
  · exact ⟨['+'], rfl, .plus⟩
  · exact ⟨[], rfl, .none⟩

theorem takeSign_append {s rest : List Char} {k : ℤ} (h : Sign s k)
    (hrest : ∀ c ∈ rest.head?, c ≠ '-' ∧ c ≠ '+') :
    ∃ negative, takeSign (s ++ rest) = (negative, rest) ∧ factor negative = k := by
  cases h with
  | none =>
      refine ⟨false, ?_, rfl⟩
      rw [List.nil_append]
      unfold takeSign
      split
      · exact absurd rfl (hrest _ rfl).1
      · exact absurd rfl (hrest _ rfl).2
      · rfl
  | plus => exact ⟨false, rfl, rfl⟩
  | minus => exact ⟨true, rfl, rfl⟩

theorem readExponent?_eq_some_iff {cs : List Char} {e : Int} :
    readExponent? cs = some e ↔ Exponent cs e := by
  constructor
  · intro h
    cases cs with
    | nil =>
        cases h
        exact .none
    | cons c cs =>
        obtain ⟨s, hcs, hsign⟩ := sign_takeSign cs
        rw [readExponent?] at h
        split at h
        · next hmark =>
            generalize takeSign cs = p at h hcs hsign
            obtain ⟨negative, ds⟩ := p
            simp only at h hcs hsign
            split at h
            · cases h
            · next hdigits =>
                cases h
                have hds : Digits ds := by simpa [Digits] using hdigits
                have hexponent := Exponent.some hmark hsign hds
                rw [← hcs] at hexponent
                cases negative <;> simpa [factor, ofDigits_eq_notated] using hexponent
        · cases h
  · intro h
    cases h with
    | none => rfl
    | @some c s ds k mark sign digits =>
        have hhead : ∀ d ∈ ds.head?, d ≠ '-' ∧ d ≠ '+' := fun d hd =>
          ne_sign_of_isDigit (digits.2 d (List.mem_of_head? hd))
        obtain ⟨negative, htake, rfl⟩ := takeSign_append sign hhead
        have hdigits : ¬(ds.isEmpty || !ds.all Char.isDigit) = true := by
          simpa [Digits] using digits
        rw [readExponent?, if_pos mark, htake]
        simp only [if_neg hdigits]
        cases negative <;> simp [factor, ofDigits_eq_notated]

/-- What the digits before and after the point are worth, read in one row. -/
theorem mantissa_value {whole fraction : List Char} (k e : ℤ) :
    (k : ℚ) * (notated whole + notated fraction / 10 ^ fraction.length) * 10 ^ e =
      k * (ofDigits (whole ++ fraction) : ℕ) * 10 ^ (e - fraction.length) := by
  rw [ofDigits_eq_notated, notated_append, zpow_sub₀ (by norm_num), zpow_natCast]
  push_cast
  field_simp

/-- **What is read is a numeral of the value read.** -/
theorem writes_of_ofChars? {cs : List Char} {n : Numeral} (h : Numeral.ofChars? cs = some n) :
    Writes cs n.value := by
  obtain ⟨s, hcs, hsign⟩ := sign_takeSign cs
  unfold Numeral.ofChars? at h
  generalize takeSign cs = p at h hcs hsign
  obtain ⟨negative, body⟩ := p
  simp only at h hcs hsign
  have hbody := List.takeWhile_append_dropWhile (p := Char.isDigit) (l := body)
  have hwhole : ∀ c ∈ body.takeWhile Char.isDigit, c.isDigit = true :=
    fun c hc => List.mem_takeWhile_imp hc
  generalize body.takeWhile Char.isDigit = whole at h hbody hwhole
  -- A point after the digits has a fraction behind it; without one the exponent begins there.
  split at h
  · next rest hdrop =>
      have hrest := List.takeWhile_append_dropWhile (p := Char.isDigit) (l := rest)
      have hfraction : ∀ c ∈ rest.takeWhile Char.isDigit, c.isDigit = true :=
        fun c hc => List.mem_takeWhile_imp hc
      generalize rest.takeWhile Char.isDigit = fraction at h hrest hfraction
      simp only at h
      split at h
      · cases h
      · next hsome =>
          obtain ⟨e, he, rfl⟩ := Option.map_eq_some_iff.mp h
          have hdigits : Digits (whole ++ fraction) := by
            refine ⟨by simpa using hsome, fun c hc => ?_⟩
            exact (List.mem_append.mp hc).elim (hwhole c) (hfraction c)
          have hwrites :=
            Writes.mk hsign (.point hdigits) (readExponent?_eq_some_iff.mp he)
          rw [List.append_assoc, List.cons_append, hrest, ← hdrop, hbody, ← hcs,
            mantissa_value] at hwrites
          exact hwrites
  · simp only at h
    split at h
    · cases h
    · next hsome =>
        obtain ⟨e, he, rfl⟩ := Option.map_eq_some_iff.mp h
        have hdigits : Digits whole := ⟨by simpa using hsome, hwhole⟩
        have hwrites := Writes.mk hsign (.whole hdigits) (readExponent?_eq_some_iff.mp he)
        rw [hbody, ← hcs] at hwrites
        simpa [Numeral.value, ofDigits_eq_notated] using hwrites

/-- What follows the digits of a numeral is no digit. -/
theorem Exponent.head_not_digit {cs : List Char} {e : ℤ} (h : Exponent cs e) :
    ∀ c ∈ cs.head?, c.isDigit = false := by
  cases h with
  | none => simp
  | some mark _ _ =>
      intro c hc
      cases hc
      rcases mark with rfl | rfl <;> rfl

/-- Nor is it a point. -/
theorem Exponent.ne_point {cs rest : List Char} {e : ℤ} (h : Exponent cs e) :
    cs ≠ '.' :: rest := by
  rintro rfl
  cases h with
  | some mark _ _ => rcases mark with h | h <;> cases h

theorem Digits.head_ne_sign {ds : List Char} (h : Digits ds) (rest : List Char) :
    ∀ c ∈ (ds ++ rest).head?, c ≠ '-' ∧ c ≠ '+' := by
  obtain ⟨d, ds, rfl⟩ := List.exists_cons_of_ne_nil h.1
  intro c hc
  cases hc
  exact ne_sign_of_isDigit (h.2 d List.mem_cons_self)

/-- A mantissa begins with a digit or the point. -/
theorem Mantissa.head_ne_sign {cs : List Char} {x : ℚ} (h : Mantissa cs x) (rest : List Char) :
    ∀ c ∈ (cs ++ rest).head?, c ≠ '-' ∧ c ≠ '+' := by
  cases h with
  | whole digits => exact digits.head_ne_sign rest
  | @point ds fs digits =>
      cases ds with
      | nil =>
          intro c hc
          cases hc
          decide
      | cons d ds =>
          intro c hc
          cases hc
          exact ne_sign_of_isDigit (digits.2 d List.mem_cons_self)

/-- **Every numeral is read, and its value with it.** -/
theorem ofChars?_of_writes {cs : List Char} {x : ℚ} (h : Writes cs x) :
    ∃ n, Numeral.ofChars? cs = some n ∧ n.value = x := by
  cases h with
  | @mk s m t k e y sign mantissa exponent =>
      obtain ⟨negative, htake, rfl⟩ := takeSign_append sign (mantissa.head_ne_sign t)
      have hread := readExponent?_eq_some_iff.mpr exponent
      have htail := exponent.head_not_digit
      cases mantissa with
      | whole digits =>
          obtain ⟨htaken, hleft⟩ := span_digits digits.2 htail
          refine ⟨⟨negative, ofDigits m, e⟩, ?_, by rw [Numeral.value, ofDigits_eq_notated]⟩
          unfold Numeral.ofChars?
          rw [htake]
          simp only [htaken, hleft]
          split
          · exact absurd rfl exponent.ne_point
          · simp [hread, digits.1]
      | @point ds fs digits =>
          have hwhole : ∀ c ∈ ds, c.isDigit = true := fun c hc =>
            digits.2 c (List.mem_append_left fs hc)
          have hfraction : ∀ c ∈ fs, c.isDigit = true := fun c hc =>
            digits.2 c (List.mem_append_right ds hc)
          have hpoint : ∀ c ∈ ('.' :: (fs ++ t)).head?, c.isDigit = false := by
            intro c hc
            cases hc
            rfl
          obtain ⟨htaken, hleft⟩ := span_digits hwhole hpoint
          obtain ⟨htaken', hleft'⟩ := span_digits hfraction htail
          refine ⟨⟨negative, ofDigits (ds ++ fs), e - fs.length⟩, ?_, (mantissa_value _ _).symm⟩
          unfold Numeral.ofChars?
          rw [htake, List.append_assoc, List.cons_append]
          simp only [htaken, hleft, htaken', hleft']
          have hsome : ¬(ds.isEmpty && fs.isEmpty) = true := by
            simpa using digits.1
          simp [hread, hsome]

theorem writes_iff {cs : List Char} {x : ℚ} :
    Writes cs x ↔ ∃ n, Numeral.ofChars? cs = some n ∧ n.value = x := by
  constructor
  · exact ofChars?_of_writes
  · rintro ⟨n, hread, rfl⟩
    exact writes_of_ofChars? hread

/-- No text is a numeral of two values. -/
theorem Writes.value_unique {cs : List Char} {x y : ℚ} (hx : Writes cs x) (hy : Writes cs y) :
    x = y := by
  obtain ⟨n, hread, rfl⟩ := writes_iff.mp hx
  obtain ⟨n', hread', rfl⟩ := writes_iff.mp hy
  cases hread.symm.trans hread'
  rfl

/-! ### The range of the doubles -/

/-- A finite double: 53 binary digits with a sign, and how far the point is shifted. -/
def IsDouble (y : ℚ) : Prop :=
  ∃ m e : ℤ, |m| < 2 ^ 53 ∧ -1074 ≤ e ∧ e ≤ 971 ∧ y = m * 2 ^ e

/-- The largest double. -/
def largest : ℚ := (2 ^ 53 - 1) * 2 ^ 971

/-- What would come after the largest double. -/
def beyond : ℚ := 2 ^ 1024

/-- A double can hold a value, rounded: one of them is nearer to it than what would come after the
largest, on either side. -/
def InRange (x : ℚ) : Prop :=
  ∃ y, IsDouble y ∧ |x - y| < |x - beyond| ∧ |x - y| < |x + beyond|

theorem isDouble_largest : IsDouble largest := by
  have hshift : (2 : ℚ) ^ (971 : ℤ) = 2 ^ 971 := zpow_ofNat 2 971
  refine ⟨2 ^ 53 - 1, 971, by norm_num, by norm_num, le_rfl, ?_⟩
  rw [largest, hshift]
  congr 1
  norm_num

theorem IsDouble.neg {y : ℚ} (h : IsDouble y) : IsDouble (-y) := by
  obtain ⟨m, e, hm, hlower, hupper, rfl⟩ := h
  exact ⟨-m, e, by rwa [abs_neg], hlower, hupper, by push_cast; ring⟩

theorem IsDouble.abs_le_largest {y : ℚ} (h : IsDouble y) : |y| ≤ largest := by
  obtain ⟨m, e, hm, -, hupper, rfl⟩ := h
  have hdigits : |(m : ℚ)| ≤ 2 ^ 53 - 1 := by
    have hm' : |m| ≤ 2 ^ 53 - 1 := Int.le_sub_one_of_lt hm
    exact_mod_cast hm'
  have hshift : (2 : ℚ) ^ e ≤ 2 ^ 971 := zpow_le_zpow_right₀ (by norm_num) hupper
  rw [abs_mul, abs_of_pos (a := (2 : ℚ) ^ e) (by positivity), largest]
  exact mul_le_mul hdigits hshift (by positivity) (by norm_num)

/-- The end of the range is halfway from the largest double to the power of two beyond. -/
theorem two_mul_rangeEnd : (2 : ℚ) * rangeEnd = largest + beyond := by
  have hlast : (2 : ℚ) ^ 971 = 2 ^ 970 * 2 := pow_succ _ _
  have hnext : (2 : ℚ) ^ 1024 = 2 ^ 970 * 2 ^ 54 := pow_add _ 970 54
  have hend : ∀ k, (((Nat.pow 2 54 - 1) * Nat.pow 2 k : ℕ) : ℚ) = (2 ^ 54 - 1) * 2 ^ k := by
    intro k
    rw [Nat.cast_mul, Nat.pow_eq, Nat.pow_eq, Nat.cast_pow]
    norm_num
  rw [largest, beyond, hlast, hnext, rangeEnd]
  simp only [hend]
  generalize (2 : ℚ) ^ 970 = unit
  ring

theorem largest_lt : largest < beyond := by
  have hnext : (2 : ℚ) ^ 1024 = 2 ^ 53 * 2 ^ 971 := pow_add _ 53 971
  rw [largest, beyond, hnext]
  gcongr
  norm_num

/-- What is nearer to the lower of two numbers lies below the middle between them. -/
theorem nearer_iff {x y z : ℚ} (h : y < z) : |x - y| < |x - z| ↔ 2 * x < y + z := by
  have hdiff : (x - z) ^ 2 - (x - y) ^ 2 = (z - y) * (y + z - 2 * x) := by ring
  rw [← sq_lt_sq, ← sub_pos, hdiff, mul_pos_iff_of_pos_left (sub_pos.mpr h), sub_pos]

theorem InRange.neg {x : ℚ} (h : InRange x) : InRange (-x) := by
  obtain ⟨y, hdouble, hright, hleft⟩ := h
  refine ⟨-y, hdouble.neg, ?_, ?_⟩
  · rwa [neg_sub_neg, abs_sub_comm, ← neg_add', abs_neg]
  · rwa [neg_sub_neg, abs_sub_comm, neg_add_eq_sub, abs_sub_comm beyond]

theorem InRange.lt_rangeEnd {x : ℚ} (h : InRange x) : x < rangeEnd := by
  obtain ⟨y, hdouble, hright, -⟩ := h
  have hy : y ≤ largest := (le_abs_self y).trans hdouble.abs_le_largest
  have hbelow := (nearer_iff (hy.trans_lt largest_lt)).mp hright
  have hmid := two_mul_rangeEnd
  linarith

theorem inRange_of_nonneg {x : ℚ} (hx : 0 ≤ x) (h : x < rangeEnd) : InRange x := by
  have hmid := two_mul_rangeEnd
  have hbeyond := largest_lt
  have hlargest : 0 ≤ largest := (abs_nonneg _).trans isDouble_largest.abs_le_largest
  refine ⟨largest, isDouble_largest, (nearer_iff hbeyond).mpr (by linarith), ?_⟩
  rw [abs_of_nonneg (a := x + beyond) (by linarith)]
  exact abs_lt.mpr ⟨by linarith, by linarith⟩

/-- A value is in the range exactly if it lies before its end, on either side. -/
theorem inRange_iff {x : ℚ} : InRange x ↔ |x| < rangeEnd := by
  constructor
  · intro h
    have hleft := h.neg.lt_rangeEnd
    exact abs_lt.mpr ⟨by linarith, h.lt_rangeEnd⟩
  · intro h
    rcases le_total 0 x with hx | hx
    · rw [abs_of_nonneg hx] at h
      exact inRange_of_nonneg hx h
    · rw [abs_of_nonpos hx] at h
      simpa using (inRange_of_nonneg (neg_nonneg.mpr hx) h).neg

theorem Numeral.abs_value (n : Numeral) : |n.value| = n.digits * 10 ^ n.exponent := by
  have hfactor : |(factor n.negative : ℚ)| = 1 := by
    cases n.negative <;> simp [factor]
  rw [value, abs_mul, abs_mul, hfactor, one_mul, Nat.abs_cast, abs_of_pos (by positivity)]

/-- The magnitude leaves the value a factor of ten. -/
theorem Numeral.magnitude_bounds {n : Numeral} (h : n.digits ≠ 0) :
    (10 : ℚ) ^ (n.magnitude - 1) ≤ |n.value| ∧ |n.value| < 10 ^ n.magnitude := by
  have hpos := Nat.length_toDigits_pos (b := 10) (n := n.digits)
  have hlength := fun k => Nat.length_toDigits_le_iff (b := 10) (n := n.digits) (k := k) (by decide)
  rw [Numeral.abs_value, magnitude]
  generalize (Nat.toDigits 10 n.digits).length = length at hpos hlength
  obtain ⟨k, rfl⟩ : ∃ k, length = k + 1 := ⟨length - 1, by omega⟩
  have hlower : 10 ^ k ≤ n.digits := by
    rcases Nat.eq_zero_or_pos k with rfl | hk
    · exact Nat.pos_of_ne_zero h
    · by_contra hsmall
      exact absurd ((hlength k hk).mpr (Nat.lt_of_not_le hsmall)) (by omega)
  have hupper : n.digits < 10 ^ (k + 1) := (hlength _ hpos).mp le_rfl
  have hexponent : ((k + 1 : ℕ) : ℤ) + n.exponent - 1 = (k : ℤ) + n.exponent := by
    push_cast
    ring
  rw [hexponent, zpow_add₀ (by norm_num), zpow_add₀ (by norm_num), zpow_natCast, zpow_natCast]
  constructor
  · gcongr
    exact_mod_cast hlower
  · gcongr
    exact_mod_cast hupper

/-- A value is below a number if the digits are, once both are multiplied by the power of ten that
makes them whole. -/
theorem Numeral.abs_value_lt_iff (n : Numeral) (bound : ℕ) :
    |n.value| < bound ↔ match n.exponent with
      | .ofNat e => n.digits * Nat.pow 10 e < bound
      | .negSucc e => n.digits < bound * Nat.pow 10 (e + 1) := by
  rw [Numeral.abs_value]
  cases n.exponent with
  | ofNat e =>
      rw [Int.ofNat_eq_natCast, zpow_natCast]
      simp only [Nat.pow_eq]
      exact_mod_cast Iff.rfl
  | negSucc e =>
      rw [zpow_negSucc, ← div_eq_mul_inv, div_lt_iff₀ (by positivity)]
      simp only [Nat.pow_eq]
      exact_mod_cast Iff.rfl

/-- The range ends between two powers of ten. -/
theorem rangeEnd_bounds : (10 : ℚ) ^ 308 ≤ rangeEnd ∧ (rangeEnd : ℚ) ≤ 10 ^ 309 := by
  have hlower : 10 ^ 308 ≤ rangeEnd := by decide +kernel
  have hupper : rangeEnd ≤ 10 ^ 309 := by decide +kernel
  exact ⟨by exact_mod_cast hlower, by exact_mod_cast hupper⟩

/-- **A numeral is finite exactly if its value, rounded, is in the range of the doubles.** -/
theorem Numeral.isFinite_iff (n : Numeral) : n.isFinite = true ↔ InRange n.value := by
  obtain ⟨hlower, hupper⟩ := rangeEnd_bounds
  rw [inRange_iff]
  by_cases hzero : n.digits = 0
  · have hvalue : |n.value| = 0 := by simp [Numeral.abs_value, hzero]
    have hend : (0 : ℚ) < rangeEnd := lt_of_lt_of_le (by positivity) hlower
    exact iff_of_true (by simp [isFinite, hzero]) (hvalue.trans_lt hend)
  · obtain ⟨hleast, hbelow⟩ := Numeral.magnitude_bounds hzero
    rcases lt_trichotomy n.magnitude 309 with hsmall | hborder | hlarge
    · have hvalue : |n.value| < rangeEnd := by
        calc |n.value| < 10 ^ n.magnitude := hbelow
          _ ≤ 10 ^ (308 : ℤ) := zpow_le_zpow_right₀ (by norm_num) (by omega)
          _ ≤ rangeEnd := hlower
      exact iff_of_true (by simp [isFinite, hsmall]) hvalue
    · have hopen : ¬(decide (n.digits = 0) || decide (n.magnitude < 309)) = true := by
        simp [hzero, hborder]
      rw [isFinite, if_neg hopen, if_neg (by omega), Numeral.abs_value_lt_iff]
      cases n.exponent <;> exact decide_eq_true_iff
    · have hvalue : ¬|n.value| < rangeEnd := by
        refine not_lt_of_ge ?_
        calc (rangeEnd : ℚ) ≤ 10 ^ (309 : ℤ) := hupper
          _ ≤ 10 ^ (n.magnitude - 1) := zpow_le_zpow_right₀ (by norm_num) (by omega)
          _ ≤ |n.value| := hleast
      have hnot : ¬n.magnitude < 309 := by omega
      exact iff_of_false (by simp [isFinite, hzero, hnot, hlarge]) hvalue

/-- What a double can hold of what is read is what it can hold of what is written. -/
theorem exists_isFinite_iff {cs : List Char} :
    (∃ n, Numeral.ofChars? cs = some n ∧ n.isFinite = true) ↔ ∃ x, Writes cs x ∧ InRange x := by
  constructor
  · rintro ⟨n, hread, hfinite⟩
    exact ⟨n.value, writes_of_ofChars? hread, n.isFinite_iff.mp hfinite⟩
  · rintro ⟨x, hwrites, hrange⟩
    obtain ⟨n, hread, rfl⟩ := ofChars?_of_writes hwrites
    exact ⟨n, hread, n.isFinite_iff.mpr hrange⟩

end ItemStore.Decimal
