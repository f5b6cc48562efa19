/-
# Rounding to the nearest whole number

A quotient is rounded to the nearest whole number; if it lies halfway between
two, to the even one of them.

Key definition: `Rounding.nearest`.
Key theorems: `Rounding.nearest_mul`, `Rounding.nearest_within`.
-/

namespace DiceRoller
namespace Rounding

/-- The whole number nearest to a quotient, of two such the even one. -/
def nearest (num den : Nat) : Nat :=
  let q := num / den
  let twice := 2 * (num % den)
  if twice < den ∨ (twice = den ∧ q % 2 = 0) then q else q + 1

/-- Rounding leaves whole numbers alone. -/
theorem nearest_mul (n : Nat) {den : Nat} (h : 0 < den) : nearest (n * den) den = n := by
  simp [nearest, Nat.mul_div_cancel n h, h]

/-- The rounded number is the quotient rounded down or the next one, whichever
is not farther away. -/
theorem nearest_cases (num den : Nat) :
    (nearest num den = num / den ∧ 2 * (num % den) ≤ den) ∨
      (nearest num den = num / den + 1 ∧ den ≤ 2 * (num % den)) := by
  unfold nearest
  dsimp only
  split
  · exact .inl ⟨rfl, by omega⟩
  · exact .inr ⟨rfl, by omega⟩

/-- The rounded number is within half of the quotient. -/
theorem nearest_within (num : Nat) {den : Nat} (h : 0 < den) :
    2 * (nearest num den * den) ≤ 2 * num + den ∧
      2 * num ≤ 2 * (nearest num den * den) + den := by
  have hd := Nat.div_add_mod num den
  have hm := Nat.mod_lt num h
  rw [Nat.mul_comm] at hd
  rcases nearest_cases num den with ⟨he, h2⟩ | ⟨he, h2⟩ <;> rw [he]
  · omega
  · rw [Nat.add_mul]
    omega

end Rounding
end DiceRoller
