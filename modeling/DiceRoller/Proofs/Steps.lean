/-
# Steps that may fail

Checks and steps are put one after the other, and the first failure ends them.
So they succeed together exactly if each one does on what those before it have
left, and fail together exactly if one of them does after those before it have
succeeded.

Key theorems: `exceptBind_eq_ok_iff`, `bind_eq_ok_iff`, `bind_eq_error_iff`,
`check_eq_ok_iff_of`, `cons_eq_ok_iff`, `cons_eq_error_iff`.
-/

namespace DiceRoller

/-! ### Checks one after the other -/

section Except

variable {α β ε : Type} {x : Except ε α} {f : α → Except ε β}

theorem exceptBind_of_ok {a : α} (h : x = .ok a) : (x >>= f) = f a := by
  rw [h]
  rfl

theorem exceptBind_eq_ok_iff {b : β} :
    (x >>= f) = .ok b ↔ ∃ a, x = .ok a ∧ f a = .ok b := by
  cases x with
  | ok a =>
    constructor
    · intro h
      exact ⟨a, rfl, h⟩
    · rintro ⟨a', ha, h⟩
      cases ha
      exact h
  | error e =>
    constructor
    · intro h
      cases h
    · rintro ⟨a, h, -⟩
      cases h

/-- A check and what comes after it fail exactly if the one or the other does. -/
theorem exceptBind_eq_error_iff {e : ε} :
    (x >>= f) = .error e ↔ x = .error e ∨ ∃ a, x = .ok a ∧ f a = .error e := by
  cases x with
  | ok a =>
    constructor
    · intro h
      exact .inr ⟨a, rfl, h⟩
    · rintro (h | ⟨a', ha, h⟩)
      · cases h
      · cases ha
        exact h
  | error e' =>
    constructor
    · intro h
      cases h
      exact .inl rfl
    · rintro (h | ⟨a, h, -⟩)
      · cases h
        rfl
      · cases h

end Except

/-! ### Steps one after the other -/

section Bind

variable {ε σ α β : Type} {x : EStateM ε σ α} {f : α → EStateM ε σ β} {s s' : σ}

theorem bind_of_ok {a : α} (h : x s = .ok a s') : (x >>= f) s = f a s' := by
  change EStateM.bind x f s = f a s'
  rw [EStateM.bind, h]

theorem bind_of_error {e : ε} (h : x s = .error e s') : (x >>= f) s = .error e s' := by
  change EStateM.bind x f s = .error e s'
  rw [EStateM.bind, h]

theorem bind_eq_ok_iff {b : β} :
    (x >>= f) s = .ok b s' ↔ ∃ a s₁, x s = .ok a s₁ ∧ f a s₁ = .ok b s' := by
  constructor
  · intro h
    cases hx : x s with
    | ok a s₁ => exact ⟨a, s₁, rfl, by rwa [bind_of_ok hx] at h⟩
    | error e s₁ => rw [bind_of_error hx] at h; cases h
  · rintro ⟨a, s₁, hx, hf⟩
    rw [bind_of_ok hx, hf]

/-- Two steps fail exactly if the first one does, or the second one after it. -/
theorem bind_eq_error_iff {e : ε} : (x >>= f) s = .error e s' ↔
    x s = .error e s' ∨ ∃ a s₁, x s = .ok a s₁ ∧ f a s₁ = .error e s' := by
  constructor
  · intro h
    cases hx : x s with
    | ok a s₁ =>
      rw [bind_of_ok hx] at h
      exact .inr ⟨a, s₁, rfl, h⟩
    | error e' s₁ =>
      rw [bind_of_error hx] at h
      cases h
      exact .inl rfl
  · rintro (hx | ⟨a, s₁, hx, hf⟩)
    · exact bind_of_error hx
    · rw [bind_of_ok hx, hf]

theorem exists_of_run' {a : α} (h : EStateM.run' x s = some a) : ∃ s₁, x s = .ok a s₁ := by
  delta EStateM.run' EStateM.run at h
  cases hx : x s with
  | ok b s₁ =>
    rw [hx] at h
    exact ⟨s₁, by rw [Option.some.inj h]⟩
  | error e s₁ =>
    rw [hx] at h
    cases h

theorem pure_eq_ok_iff {a b : α} : (pure a : EStateM ε σ α) s = .ok b s' ↔ a = b ∧ s = s' := by
  change EStateM.Result.ok a s = .ok b s' ↔ _
  rw [EStateM.Result.ok.injEq]

end Bind

/-! ### Checks as steps -/

section Checks

variable {ε σ α β : Type} {g : Except ε α → EStateM ε σ α} {x : Except ε α}
  {f : α → EStateM ε σ β} {s s' : σ}

/-- A check that is made a step succeeds exactly if it does by itself, and does
not touch the state. -/
theorem check_eq_ok_iff_of (hok : ∀ a, g (.ok a) = pure a) (herr : ∀ e, g (.error e) = throw e)
    {a : α} : g x s = .ok a s' ↔ x = .ok a ∧ s = s' := by
  cases x with
  | ok b => rw [hok, pure_eq_ok_iff, Except.ok.injEq]
  | error e =>
    rw [herr]
    constructor
    · intro h
      cases h
    · rintro ⟨h, -⟩
      cases h

theorem check_eq_error_iff_of (hok : ∀ a, g (.ok a) = pure a) (herr : ∀ e, g (.error e) = throw e)
    {e : ε} : g x s = .error e s' ↔ x = .error e ∧ s = s' := by
  cases x with
  | ok b =>
    rw [hok]
    constructor
    · intro h
      cases h
    · rintro ⟨h, -⟩
      cases h
  | error e' =>
    rw [herr]
    constructor
    · intro h
      cases h
      exact ⟨rfl, rfl⟩
    · rintro ⟨h, rfl⟩
      cases h
      rfl

theorem check_bind_eq_ok_iff_of (hok : ∀ a, g (.ok a) = pure a)
    (herr : ∀ e, g (.error e) = throw e) {b : β} :
    (g x >>= f) s = .ok b s' ↔ ∃ a, x = .ok a ∧ f a s = .ok b s' := by
  rw [bind_eq_ok_iff]
  constructor
  · rintro ⟨a, _, hx, hf⟩
    obtain ⟨ha, rfl⟩ := (check_eq_ok_iff_of hok herr).1 hx
    exact ⟨a, ha, hf⟩
  · rintro ⟨a, hx, hf⟩
    exact ⟨a, s, (check_eq_ok_iff_of hok herr).2 ⟨hx, rfl⟩, hf⟩

end Checks

theorem cons_eq_ok_iff {ε σ α : Type} {x : EStateM ε σ α} {y : α → EStateM ε σ (List α)} {s s' : σ}
    {l : List α} : (do let a ← x; let as ← y a; return a :: as) s = .ok l s' ↔
      ∃ a s₁ as, x s = .ok a s₁ ∧ y a s₁ = .ok as s' ∧ a :: as = l := by
  constructor
  · intro h
    obtain ⟨a, s₁, hx, h₁⟩ := bind_eq_ok_iff.1 h
    obtain ⟨as, s₂, hy, h₂⟩ := bind_eq_ok_iff.1 h₁
    obtain ⟨rfl, rfl⟩ := pure_eq_ok_iff.1 h₂
    exact ⟨a, s₁, as, hx, hy, rfl⟩
  · rintro ⟨a, s₁, as, hx, hy, rfl⟩
    exact bind_eq_ok_iff.2 ⟨a, s₁, hx, bind_eq_ok_iff.2 ⟨as, s', hy, rfl⟩⟩

theorem cons_eq_error_iff {ε σ α : Type} {x : EStateM ε σ α} {y : α → EStateM ε σ (List α)}
    {s s' : σ} {e : ε} : (do let a ← x; let as ← y a; return a :: as) s = .error e s' ↔
      x s = .error e s' ∨ ∃ a s₁, x s = .ok a s₁ ∧ y a s₁ = .error e s' := by
  have hrest : ∀ a s₁, (do let as ← y a; return a :: as : EStateM ε σ (List α)) s₁ = .error e s' ↔
      y a s₁ = .error e s' := by
    intro a s₁
    rw [bind_eq_error_iff]
    constructor
    · rintro (h | ⟨as, s₂, -, h⟩)
      · exact h
      · cases h
    · exact .inl
  rw [bind_eq_error_iff]
  simp only [hrest]

end DiceRoller
