/-
# Two steps that go alike

Two steps, each with a state of its own, are compared side by side. They go alike
if from states that are related they both give a result, with results and states
that are related again, or both fail with the same fault and leave the same
source. `Alike P x y Q R` says so: `P` relates the states before, `Q` the results
and `R` the states after.

Steps one after the other go alike if each of them does (`Alike.bind`). So for two
programs of the same shape it is enough to look at the steps in which they differ.

Key definitions: `SameSource`, `EndsAlike`, `Alike`.
Key theorems: `Alike.bind`, `Alike.cons`, `Alike.check_of`, `EndsAlike.fails_or_gives`.
-/
import DiceRoller.Proofs.Source.Replay
import Mathlib.Data.List.Forall2

namespace DiceRoller

section

variable {σ τ α β γ δ : Type} [HasSource σ] [HasSource τ]

/-- The states have the same source in them. -/
def SameSource (s : σ) (t : τ) : Prop := HasSource.source s = HasSource.source t

/-- Two steps have come to results that are related, or to the same fault. -/
inductive EndsAlike (Q : α → β → Prop) (R : σ → τ → Prop) :
    EStateM.Result Fault σ α → EStateM.Result Fault τ β → Prop
  | ok {a : α} {b : β} {s : σ} {t : τ} : Q a b → R s t → EndsAlike Q R (.ok a s) (.ok b t)
  | error {f : Fault} {s : σ} {t : τ} : SameSource s t →
      EndsAlike Q R (.error f s) (.error f t)

/-- From states that are related, two steps end alike. -/
def Alike (P : σ → τ → Prop) (x : EStateM Fault σ α) (y : EStateM Fault τ β) (Q : α → β → Prop)
    (R : σ → τ → Prop) : Prop :=
  ∀ (s : σ) (t : τ), P s t → EndsAlike Q R (x s) (y t)

variable {P R S : σ → τ → Prop} {Q Q' : α → β → Prop} {Q₁ : γ → δ → Prop}
  {x : EStateM Fault σ α} {y : EStateM Fault τ β}

/-- There are only these two ways to end alike. -/
theorem EndsAlike.fails_or_gives {rx : EStateM.Result Fault σ α} {ry : EStateM.Result Fault τ β}
    (h : EndsAlike Q R rx ry) :
    (∃ f s t, rx = .error f s ∧ ry = .error f t ∧ SameSource s t) ∨
      ∃ a b s t, rx = .ok a s ∧ ry = .ok b t ∧ Q a b ∧ R s t := by
  cases h with
  | ok hq hr => exact .inr ⟨_, _, _, _, rfl, rfl, hq, hr⟩
  | error hs => exact .inl ⟨_, _, _, rfl, rfl, hs⟩

theorem EndsAlike.exists_right {rx : EStateM.Result Fault σ α} {ry : EStateM.Result Fault τ β}
    (h : EndsAlike Q R rx ry) {a : α} {s : σ} (hx : rx = .ok a s) :
    ∃ b t, ry = .ok b t ∧ Q a b ∧ R s t := by
  cases h with
  | ok hq hr =>
    cases hx
    exact ⟨_, _, rfl, hq, hr⟩
  | error => cases hx

theorem EndsAlike.exists_left {rx : EStateM.Result Fault σ α} {ry : EStateM.Result Fault τ β}
    (h : EndsAlike Q R rx ry) {b : β} {t : τ} (hy : ry = .ok b t) :
    ∃ a s, rx = .ok a s ∧ Q a b ∧ R s t := by
  cases h with
  | ok hq hr =>
    cases hy
    exact ⟨_, _, rfl, hq, hr⟩
  | error => cases hy

theorem EndsAlike.mono {rx : EStateM.Result Fault σ α} {ry : EStateM.Result Fault τ β}
    (h : EndsAlike Q R rx ry) (hq : ∀ a b, Q a b → Q' a b) : EndsAlike Q' R rx ry := by
  cases h with
  | ok hab hr => exact .ok (hq _ _ hab) hr
  | error hs => exact .error hs

namespace Alike

theorem pure {a : α} {b : β} (hq : Q a b) :
    Alike P (Pure.pure a : EStateM Fault σ α) (Pure.pure b : EStateM Fault τ β) Q P :=
  fun _ _ hp => .ok hq hp

theorem throw (hP : ∀ s t, P s t → SameSource s t) (f : Fault) :
    Alike P (MonadExcept.throw f : EStateM Fault σ α) (MonadExcept.throw f : EStateM Fault τ β)
      Q R :=
  fun s t hp => .error (hP s t hp)

/-- Two steps go alike with two others after them, if these go alike for results
that are related. -/
theorem bind {k : α → EStateM Fault σ γ} {l : β → EStateM Fault τ δ} (hx : Alike P x y Q R)
    (hk : ∀ a b, Q a b → Alike R (k a) (l b) Q₁ S) : Alike P (x >>= k) (y >>= l) Q₁ S := by
  intro s t hp
  rcases (hx s t hp).fails_or_gives with ⟨f, s₁, t₁, hxf, hyf, hs⟩ | ⟨a, b, s₁, t₁, hxa, hyb, hq, hr⟩
  · rw [bind_of_error hxf, bind_of_error hyf]
    exact .error hs
  · rw [bind_of_ok hxa, bind_of_ok hyb]
    exact hk a b hq s₁ t₁ hr

theorem check_of {gσ : Except Fault α → EStateM Fault σ α} {gτ : Except Fault α → EStateM Fault τ α}
    (hP : ∀ s t, P s t → SameSource s t)
    (hσ : ∀ a, gσ (.ok a) = Pure.pure a) (hσ' : ∀ f, gσ (.error f) = MonadExcept.throw f)
    (hτ : ∀ a, gτ (.ok a) = Pure.pure a) (hτ' : ∀ f, gτ (.error f) = MonadExcept.throw f)
    (c : Except Fault α) : Alike P (gσ c) (gτ c) Eq P := by
  cases c with
  | ok a =>
    rw [hσ, hτ]
    exact .pure rfl
  | error f =>
    rw [hσ', hτ']
    exact .throw hP f

theorem cons {xs : α → EStateM Fault σ (List α)} {ys : β → EStateM Fault τ (List β)}
    (hx : Alike P x y Q R) (hxs : ∀ a b, Q a b → Alike R (xs a) (ys b) (List.Forall₂ Q) S) :
    Alike P (do let a ← x; let as ← xs a; return a :: as)
      (do let b ← y; let bs ← ys b; return b :: bs) (List.Forall₂ Q) S :=
  hx.bind fun a b hab => (hxs a b hab).bind fun _ _ habs => .pure (.cons hab habs)

end Alike
end

theorem EndsAlike.refl {σ α : Type} [HasSource σ] (r : EStateM.Result Fault σ α) :
    EndsAlike Eq Eq r r := by
  cases r with
  | ok a s => exact .ok rfl rfl
  | error f s => exact .error rfl

end DiceRoller
