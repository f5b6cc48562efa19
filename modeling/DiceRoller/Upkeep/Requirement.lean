/-
# The version that the program requires

A version is compared item by item, from the left, up to the first item that
differs; a version that ends early is the lower one. Only numbers have an
order, so an item of another kind ends the comparison with a fault.

Key definitions: `Requirement.atLeast`, `Requirement.required`,
`Requirement.check`.
Key theorem: `Requirement.atLeast_eq_false_iff`.
-/
import DiceRoller.Datum

namespace DiceRoller
namespace Requirement

/-- Whether a version is at least as high as the other one. -/
def atLeast : List Datum → List Int → Except Fault Bool
  | _, [] => .ok true
  | [], _ :: _ => .ok false
  | d :: ds, n :: ns =>
    match d.order? (.number n) with
    | none => .error (.misuse (.unordered ">=" d.kindName (Datum.number n).kindName))
    | some (some .eq) => atLeast ds ns
    | some (some .gt) => .ok true
    | some _ => .ok false

/-- The version required of the interpreter. -/
def required : List Int := [3, 6]

/-- The version of the program. -/
def version : String := "0.1.0"

/-- What is printed when the requirement is not met. -/
def complaint : String :=
  "This entire program must be run with python >= 3.6\n"
    ++ "If unavailable on platform, see https://github.com/pyenv/pyenv\n"

/-- The version of the program if the requirement is met; only the first two
items of the version count. -/
def check (items : List Datum) : Except Fault (Option String) := do
  return if ← atLeast (items.take 2) required then some version else none

/-- A version of whole numbers is too low exactly if it comes first in the
order of lists of numbers. -/
theorem atLeast_eq_false_iff {v w : List Int} :
    atLeast (v.map .number) w = .ok false ↔ List.Lex (· < ·) v w := by
  induction v generalizing w with
  | nil => cases w <;> simp [atLeast]
  | cons x xs ih =>
    cases w with
    | nil => simp [atLeast]
    | cons y ys =>
      rw [List.cons_lex_cons_iff]
      by_cases h : x < y
      · simp [atLeast, Decimal.orderInt, h]
      · by_cases e : x = y
        · simp [atLeast, Decimal.orderInt, e, ih]
        · simp [atLeast, Decimal.orderInt, h, e]

end Requirement
end DiceRoller
