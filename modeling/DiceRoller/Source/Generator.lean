/-
# Generators

A generator is asked for numbers between two bounds. Its state is a word of some
width, and what it draws and the state it leaves depend on its state and the
bounds alone. Of the number nothing is known but that it lies between the bounds.

Key definitions: `Generator`, `Generator.draw`, `Generator.drawBetween`,
`Generator.stateCount`.
Key theorem: `Generator.draw_mem_range`.
-/
import DiceRoller.Datum
import DiceRoller.RealNumber

namespace DiceRoller

/-- A generator, with the seed that it was made from. -/
structure Generator where
  seed : Nat
  /-- How many bits a state has. -/
  width : Nat
  /-- What is drawn between two bounds in a state. -/
  draws : Int → Int → BitVec width → EStateM.Result Fault (BitVec width) Int
  mem_range : ∀ {low high v : Int} {w w' : BitVec width},
    draws low high w = .ok v w' → low ≤ v ∧ v ≤ high
  state : BitVec width

namespace Generator

/-- The number of states. After as many draws the generator has begun to repeat
itself. -/
def stateCount (g : Generator) : Nat := Nat.pow 2 g.width

/-- Draws a number between `low` and `high`. -/
def draw (low high : Int) (g : Generator) : EStateM.Result Fault Generator Int :=
  match g.draws low high g.state with
  | .ok v w => .ok v { g with state := w }
  | .error f w => .error f { g with state := w }

/-- The bound of a range that a datum gives: a number without what stands
behind its point, or a numeral. -/
def bound : Datum → Except Fault Int
  | .number n => .ok n
  | .truth b => .ok (if b then 1 else 0)
  | .real t => (RealNumber.ofText t).wholePart
  | .text s => Numeral.read s.toList
  | d => .error (.misuse (.notABound d.kindName))

/-- The bounds of a range. Where no higher one is given, the range starts at
zero and ends at the other one. -/
def bounds (low high : Datum) : Except Fault (Int × Int) := do
  match high with
  | .nothing => return (0, ← bound low)
  | high =>
    let m ← bound low
    let n ← bound high
    return (m, n)

/-- Draws a number between two bounds of any kind. -/
def drawBetween (low high : Datum) (g : Generator) : EStateM.Result Fault Generator Int :=
  match bounds low high with
  | .ok (low, high) => g.draw low high
  | .error f => .error f g

theorem draw_mem_range {low high v : Int} {g g' : Generator} (h : g.draw low high = .ok v g') :
    low ≤ v ∧ v ≤ high := by
  unfold draw at h
  split at h
  · next hok =>
    cases h
    exact g.mem_range hok
  · cases h

end Generator
end DiceRoller
