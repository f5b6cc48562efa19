/-
# Sources of numbers

Dice are rolled with a source: a script, or a generator. Both draw a whole
number between two bounds. A draw from a script that fails takes nothing.

Bounds are whole numbers, but data of any kind may be given for them; then it
is up to the source what fits.

Key definitions: `Source`, `Source.draw`, `Source.drawBetween`,
`Source.roll`, `Source.horizon`.
Key theorem: `Source.roll_number`.
-/
import DiceRoller.Source.Generator
import DiceRoller.Source.Script

namespace DiceRoller

/-- What dice are rolled with. -/
inductive Source where
  | scripted (s : Script)
  | seeded (g : Generator)

namespace Source

/-- Draws a number between `low` and `high`. -/
def draw (low high : Int) : EStateM Fault Source Int
  | scripted s =>
    match s.draw low high with
    | .ok v s => .ok v (scripted s)
    | .error f s => .error f (scripted s)
  | seeded g =>
    match g.draw low high with
    | .ok v g => .ok v (seeded g)
    | .error f g => .error f (seeded g)

/-- Draws a number between two bounds of any kind. -/
def drawBetween : Datum → Datum → EStateM Fault Source Int
  | .number low, .number high => draw low high
  | low, high => fun
    | scripted s =>
      match s.drawBetween low high with
      | .ok v s => .ok v (scripted s)
      | .error f s => .error f (scripted s)
    | seeded g =>
      match g.drawBetween low high with
      | .ok v g => .ok v (seeded g)
      | .error f g => .error f (seeded g)

/-- Rolls a die with the sides. -/
def roll (sides : Datum) : EStateM Fault Source Int := drawBetween (.number 1) sides

/-- A die with a whole number of sides shows from one up to it. -/
@[simp] theorem roll_number (sides : Int) : roll (.number sides) = draw 1 sides := rfl

/-- More draws than the source can answer in a row without failing or
repeating itself. -/
def horizon : Source → Nat
  | scripted s => s.pending.length + 1
  | seeded g => g.stateCount

/-- The fields of the source. -/
def record : Source → String
  | scripted s => s.record
  | seeded g => "NumpySource(seed=" ++ toString g.seed ++ ")"

/-- The numbers in the record. -/
def recordNumbers : Source → List Int
  | scripted s => s.recordNumbers
  | seeded g => [g.seed]

end Source
end DiceRoller
