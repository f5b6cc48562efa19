/-
# Numbers that may be written

A number may be written if it has no more than `Numeral.digitLimit` digits. So
the numbers of a tag or of a text may be written if each of them may, and what
is not larger than a number that may be written may be written too.

Key theorems: `all_writable_append`, `writable_of_le`, `not_writable_limit`.
-/
import DiceRoller.Text.Numeral

namespace DiceRoller

theorem all_writable_append {numbers : List Int} {n : Int}
    (hs : numbers.all Numeral.writable = true) (hn : Numeral.writable n = true) :
    (numbers ++ [n]).all Numeral.writable = true := by
  rw [List.all_append, hs, List.all_cons, hn]
  rfl

theorem all_writable_singleton {n : Int} (hn : Numeral.writable n = true) :
    [n].all Numeral.writable = true := by
  rw [List.all_cons, hn]
  rfl

theorem writable_zero : Numeral.writable (0 : Nat) = true := by decide +kernel

/-- What is as close to zero as a number that may be written may be written too. -/
theorem writable_of_natAbs_le {m : Int} {n : Nat} (hle : m.natAbs ≤ n)
    (hn : Numeral.writable n = true) : Numeral.writable m = true := by
  rw [Numeral.writable, decide_eq_true_eq] at *
  rw [Int.natAbs_natCast] at hn
  exact Nat.lt_of_le_of_lt hle hn

theorem writable_of_le {m n : Int} (h0 : 0 ≤ m) (hle : m ≤ n) (hn : Numeral.writable n = true) :
    Numeral.writable m = true := by
  unfold Numeral.writable at *
  rw [decide_eq_true_eq] at *
  omega

theorem writable_of_lt {n : Nat} (h : n < 1000) : Numeral.writable n = true := by
  have h1000 : Numeral.writable (1000 : Int) = true := by decide +kernel
  exact writable_of_le (Int.natCast_nonneg n) (by omega) h1000

/-- The least number that may not be written. -/
theorem not_writable_limit :
    Numeral.writable ((Nat.pow 10 Numeral.digitLimit : Nat) : Int) = false := by
  rw [Numeral.writable, Int.natAbs_natCast]
  exact decide_eq_false (Nat.lt_irrefl _)

end DiceRoller
