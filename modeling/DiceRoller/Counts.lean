/-
# Counts of values

How often each value occurs in a list, looked up in constant time. Counts are
used up value by value: a walk through a list takes one occurrence at a time
until none is left.

Key definitions: `Counts`, `Counts.ofList`, `Counts.take`, `Counts.takeAll`.
Key theorems: `Counts.count_ofList`, `Counts.count_take`, `Counts.count_takeAll`.
-/
import Std.Data.HashMap

namespace DiceRoller

/-- How often each value occurs. -/
structure Counts where
  table : Std.HashMap Int Nat

namespace Counts

/-- No value at all. -/
def empty : Counts := ⟨∅⟩

/-- How often the value occurs. -/
def count (c : Counts) (v : Int) : Nat := c.table.getD v 0

/-- The counts with another number for a value. -/
def set (c : Counts) (v : Int) (n : Nat) : Counts := ⟨c.table.insert v n⟩

/-- The counts with one more occurrence of the value. -/
def add (c : Counts) (v : Int) : Counts := c.set v (c.count v + 1)

/-- The counts of the values of a list. -/
def ofList : List Int → Counts
  | [] => empty
  | v :: vs => (ofList vs).add v

/-- The counts with one occurrence of the value less. -/
def take (c : Counts) (v : Int) : Counts := c.set v (c.count v - 1)

/-- The counts without the value. -/
def takeAll (c : Counts) (v : Int) : Counts := c.set v 0

@[simp] theorem count_empty (v : Int) : empty.count v = 0 := by simp [empty, count]

theorem count_set (c : Counts) (v w : Int) (n : Nat) :
    (c.set v n).count w = if v = w then n else c.count w := by
  by_cases h : v = w <;> simp [set, count, Std.HashMap.getD_insert, h]

theorem count_take (c : Counts) (v w : Int) :
    (c.take v).count w = if v = w then c.count w - 1 else c.count w := by
  rw [take, count_set]
  split
  · next h => rw [h]
  · rfl

theorem count_takeAll (c : Counts) (v w : Int) :
    (c.takeAll v).count w = if v = w then 0 else c.count w := count_set c v w 0

/-- The counts of a list are those of its values. -/
theorem count_ofList (vs : List Int) (v : Int) : (ofList vs).count v = vs.count v := by
  induction vs with
  | nil => simp [ofList]
  | cons w vs ih =>
    rw [ofList, add, count_set, List.count_cons]
    by_cases h : w = v <;> simp [h, ih]

end Counts
end DiceRoller
