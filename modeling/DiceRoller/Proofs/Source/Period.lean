/-
# An engine runs through all its states

A step of the engine multiplies the state by a constant factor and adds the
increment. The factor leaves 1 when it is divided by 4. If the increment is
odd, as that of every engine made from a seed is, then `2 ^ k` steps in a row
are again such a step, with a factor that leaves 1 when divided by `2 ^ (k + 2)`
and an increment that is an odd multiple of `2 ^ k`
(`Engine.iterate_two_pow`). So a state comes back after `2 ^ 128` steps and
not before (`Engine.minimalPeriod_advance`), and between them come all the
others (`Engine.exists_iterate`).

Key definitions: `Engine.advance`, `Engine.Live`.
Key theorems: `Engine.ofSeed_live`, `Engine.minimalPeriod_advance`,
`Engine.exists_iterate`.
-/
import DiceRoller.Source.Engine
import Mathlib.Data.BitVec
import Mathlib.Dynamics.PeriodicPts.Lemmas
import Mathlib.Tactic.LinearCombination
import Mathlib.Tactic.Ring

namespace DiceRoller
namespace Engine

open Function

/-- The state after the given one, where the increment is `c`. -/
def advance (c x : BitVec 128) : BitVec 128 := x * factor + c

theorem step_eq (e : Engine) : e.step = { e with state := advance e.increment e.state } := rfl

/-- The increment is odd. -/
def Live (e : Engine) : Prop := ∃ half : BitVec 128, e.increment = 2 * half + 1

theorem ofSeed_live (seed : Nat) : (ofSeed seed).Live := by
  have hodd : ∀ x : BitVec 128, x <<< 1 ||| 1#128 = 2 * x + 1 := by
    intro x
    have hand : x <<< 1 &&& 1#128 = 0#128 := by
      ext i hi
      cases i <;> simp
    rw [← BitVec.add_eq_or_of_and_eq_zero _ _ hand, BitVec.shiftLeft_eq_mul_twoPow, mul_comm]
    rfl
  exact ⟨_, hodd _⟩

variable {c half : BitVec 128}

/-- The factor leaves 1 when it is divided by 4. -/
theorem factor_eq : ∃ quarter : BitVec 128, factor = 1 + 4 * quarter :=
  ⟨0x8d83b4147f1976910e177d927f33d91, by decide⟩

theorem iterate_two_pow (hc : c = 2 * half + 1) (k : ℕ) : ∃ t s : BitVec 128,
    ∀ x, (advance c)^[2 ^ k] x = (1 + 2 ^ (k + 2) * t) * x + 2 ^ k * (2 * s + 1) := by
  induction k with
  | zero =>
    obtain ⟨quarter, hfactor⟩ := factor_eq
    refine ⟨quarter, half, fun x => ?_⟩
    rw [pow_zero, iterate_one, advance, hfactor, hc]
    ring
  | succ k ih =>
    obtain ⟨t, s, hiterate⟩ := ih
    refine ⟨t + 2 ^ (k + 1) * t * t, s + 2 ^ k * t * (2 * s + 1), fun x => ?_⟩
    rw [pow_succ, mul_two, iterate_add_apply, hiterate, hiterate]
    ring

theorem two_pow_width : (2 : BitVec 128) ^ 128 = 0 := by decide +kernel

theorem two_pow_half_ne : (2 : BitVec 128) ^ 127 ≠ 0 := by decide +kernel

/-- With an odd increment a state comes back after as many steps as there are
states, and not before. -/
theorem minimalPeriod_advance (hc : c = 2 * half + 1) (x : BitVec 128) :
    minimalPeriod (advance c) x = 2 ^ 128 := by
  have hprime : Fact (Nat.Prime 2) := ⟨Nat.prime_two⟩
  refine minimalPeriod_eq_prime_pow (k := 127) ?_ ?_
  · -- half the way the topmost bit has changed
    intro hback
    obtain ⟨t, s, hiterate⟩ := iterate_two_pow hc 127
    have hx : (advance c)^[2 ^ 127] x = x := hback
    rw [hiterate] at hx
    refine two_pow_half_ne ?_
    linear_combination hx - (2 * t * x + s) * two_pow_width
  · obtain ⟨t, s, hiterate⟩ := iterate_two_pow hc 128
    show (advance c)^[2 ^ 128] x = x
    rw [hiterate]
    linear_combination (4 * t * x + 2 * s + 1) * two_pow_width

/-- From any state every other one is reached. -/
theorem exists_iterate (hc : c = 2 * half + 1) (x y : BitVec 128) :
    ∃ n < 2 ^ 128, (advance c)^[n] x = y := by
  have hinjective : Injective fun n : Fin (2 ^ 128) => ((advance c)^[n] x).toFin := by
    intro m n hmn
    have hperiod := minimalPeriod_advance hc x
    have hm : (m : ℕ) < minimalPeriod (advance c) x := m.isLt.trans_eq hperiod.symm
    have hn : (n : ℕ) < minimalPeriod (advance c) x := n.isLt.trans_eq hperiod.symm
    exact Fin.ext (iterate_injOn_Iio_minimalPeriod hm hn (BitVec.toFin_inj.1 hmn))
  obtain ⟨n, hn⟩ := Finite.injective_iff_surjective.1 hinjective y.toFin
  exact ⟨n, n.isLt, BitVec.toFin_inj.1 hn⟩

end Engine
end DiceRoller
