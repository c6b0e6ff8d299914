/-
Steps that can fail.

Encoding, compiling and reading are all written as steps of which the first failure is the
answer.  A chain of steps succeeds when each of them does and fails where one fails first,
and these are the lemmas that take such a chain apart.
-/
import Mathlib.Data.List.Forall2

namespace ItemStore

variable {ε α β : Type}

theorem bind_eq_ok {x : Except ε α} {f : α → Except ε β} {b : β} :
    x >>= f = .ok b ↔ ∃ a, x = .ok a ∧ f a = .ok b := by
  cases x with
  | error e => simp [bind, Except.bind]
  | ok a => simp [bind, Except.bind]

theorem bind_eq_error {x : Except ε α} {f : α → Except ε β} {e : ε} :
    x >>= f = .error e ↔ x = .error e ∨ ∃ a, x = .ok a ∧ f a = .error e := by
  cases x with
  | error e => simp [bind, Except.bind]
  | ok a => simp [bind, Except.bind]

theorem map_eq_ok {x : Except ε α} {f : α → β} {b : β} :
    f <$> x = .ok b ↔ ∃ a, x = .ok a ∧ f a = b := by
  cases x with
  | error e => simp [Functor.map, Except.map]
  | ok a => simp [Functor.map, Except.map]

/-- A list is gone through with success when each of its members is. -/
theorem mapM_eq_ok_iff {f : α → Except ε β} :
    ∀ {as : List α} {bs : List β},
      as.mapM f = .ok bs ↔ List.Forall₂ (fun a b => f a = .ok b) as bs := by
  intro as
  induction as with
  | nil =>
      intro bs
      rw [List.mapM_nil, List.forall₂_nil_left_iff]
      constructor
      · intro h
        cases h
        rfl
      · rintro rfl
        rfl
  | cons a as ih =>
      intro bs
      rw [List.mapM_cons, bind_eq_ok, List.forall₂_cons_left_iff]
      constructor
      · rintro ⟨b, hb, hrest⟩
        obtain ⟨bs', hbs', he⟩ := bind_eq_ok.mp hrest
        cases he
        exact ⟨b, bs', hb, ih.mp hbs', rfl⟩
      · rintro ⟨b, bs', hb, hbs', rfl⟩
        exact ⟨b, hb, bind_eq_ok.mpr ⟨bs', ih.mpr hbs', rfl⟩⟩

/-- A list is gone through with the images of its members if all of them may have one. -/
theorem mapM_eq_map_iff {f : α → Except ε β} {p : α → Prop} {g : α → β}
    (hf : ∀ a b, f a = .ok b ↔ p a ∧ g a = b) {as : List α} {bs : List β} :
    as.mapM f = .ok bs ↔ (∀ a ∈ as, p a) ∧ as.map g = bs := by
  rw [mapM_eq_ok_iff]
  simp only [hf]
  rw [List.forall₂_and_left, ← List.forall₂_map_left_iff (R := (· = ·)), List.forall₂_eq_eq_eq]

/-- Going through a list fails with the first of its members that does. -/
theorem mapM_eq_error_iff {f : α → Except ε β} {e : ε} :
    ∀ {as : List α}, as.mapM f = .error e ↔
      ∃ before a after, as = before ++ a :: after ∧ (∀ x ∈ before, ∃ b, f x = .ok b) ∧
        f a = .error e := by
  intro as
  induction as with
  | nil =>
      rw [List.mapM_nil]
      constructor
      · intro h
        cases h
      · rintro ⟨before, a, after, h, -⟩
        cases before <;> cases h
  | cons a as ih =>
      rw [List.mapM_cons, bind_eq_error]
      constructor
      · rintro (hfirst | ⟨b, hb, hrest⟩)
        · exact ⟨[], a, as, rfl, by simp, hfirst⟩
        · rcases bind_eq_error.mp hrest with hlater | ⟨bs, -, hnever⟩
          · obtain ⟨before, x, after, rfl, hbefore, hx⟩ := ih.mp hlater
            exact ⟨a :: before, x, after, rfl, by simpa using ⟨⟨b, hb⟩, hbefore⟩, hx⟩
          · cases hnever
      · rintro ⟨before, x, after, h, hbefore, hx⟩
        cases before with
        | nil =>
            cases h
            exact Or.inl hx
        | cons y before =>
            cases h
            obtain ⟨b, hb⟩ := hbefore a List.mem_cons_self
            refine Or.inr ⟨b, hb, bind_eq_error.mpr (Or.inl (ih.mpr ⟨before, x, after, rfl, ?_, hx⟩))⟩
            exact fun y hy => hbefore y (List.mem_cons_of_mem _ hy)

/-- Everything on the right of two lists that are related has its counterpart on the left. -/
theorem exists_of_forall₂ {R : α → β → Prop} {as : List α} {bs : List β}
    (h : List.Forall₂ R as bs) : ∀ b ∈ bs, ∃ a ∈ as, R a b := by
  induction h with
  | nil => simp
  | cons hab _ ih =>
      intro b hb
      rcases List.mem_cons.mp hb with rfl | hrest
      · exact ⟨_, List.mem_cons_self, hab⟩
      · obtain ⟨a, ha, hR⟩ := ih b hrest
        exact ⟨a, List.mem_cons_of_mem _ ha, hR⟩

/-- Going through a list succeeds if each of its members does. -/
theorem exists_mapM_eq_ok_iff {f : α → Except ε β} {as : List α} :
    (∃ bs, as.mapM f = .ok bs) ↔ ∀ a ∈ as, ∃ b, f a = .ok b := by
  constructor
  · rintro ⟨bs, h⟩ a ha
    obtain ⟨b, -, hb⟩ := exists_of_forall₂ (mapM_eq_ok_iff.mp h).flip a ha
    exact ⟨b, hb⟩
  · intro h
    cases hfirst : as.mapM f with
    | ok bs => exact ⟨bs, rfl⟩
    | error e =>
        obtain ⟨before, a, after, rfl, -, hfails⟩ := mapM_eq_error_iff.mp hfirst
        obtain ⟨b, hb⟩ := h a (by simp)
        rw [hfails] at hb
        cases hb

/-- Going through lists one after another is going through all of their members. -/
theorem mapM_flatten (f : α → Except ε β) (ass : List (List α)) :
    ass.flatten.mapM f = List.flatten <$> ass.mapM (List.mapM f) := by
  induction ass with
  | nil => rfl
  | cons as ass ih =>
      rw [List.flatten_cons, List.mapM_append, List.mapM_cons, ih]
      cases as.mapM f with
      | error e => rfl
      | ok bs =>
          cases ass.mapM (List.mapM f) with
          | error e => rfl
          | ok bss => rfl

end ItemStore
