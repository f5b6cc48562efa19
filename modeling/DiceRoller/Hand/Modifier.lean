/-
# Modifiers: the steps by which a hand is rolled

A modifier has a weight, which says when it is applied, and may leave a tag.
Weights put the initial roll first, then rerolls, explosions and the three
kinds of drops. Modifiers of the same weight count as equal and keep their
order.

The amounts of a modifier may be data of any kind. They stand in its record as
they are; whether they fit shows only when the modifier is applied, and then it
fails before it changes the hand.

Key definitions: `Drop`, `Modifier`, `Modifier.weight`, `Modifier.sort`,
`Modifier.dropCount`, `Modifier.apply`.
-/
import DiceRoller.Hand.Play

namespace DiceRoller

/-- The kinds of drops. -/
inductive Drop where
  /-- A drop of the lowest without a place of its own. -/
  | plain
  /-- The drop that is part of a term. -/
  | inTerm
  /-- The drop of the lowest from every dice term. -/
  | lowest
  /-- The drop of the highest from every dice term. -/
  | highest
  deriving DecidableEq, Repr

namespace Drop

/-- The name of the modifier that drops so. -/
def name : Drop → String
  | plain => "DropDice"
  | inTerm => "InlineDropLowest"
  | lowest => "DropLowest"
  | highest => "DropHighest"

/-- When the drop is applied. -/
def weight : Drop → Nat
  | plain => 0
  | inTerm => 3
  | lowest => 4
  | highest => 5

/-- Whether the highest values are dropped. -/
def isHigh (d : Drop) : Bool := d == highest

/-- The number and the letters of the tag, if there is one. -/
def tag? : Drop → Option (Int × String)
  | plain | inTerm => none
  | lowest => some (1, "DL")
  | highest => some (2, "DH")

end Drop

/-- A step by which a hand is rolled or changed. -/
inductive Modifier where
  /-- Rolls every die of the term. -/
  | roll
  /-- Rolls one die so many times and keeps the highest or the lowest. -/
  | pick (times highest : Datum)
  /-- Replaces rolls of at most `lte`. -/
  | reroll (lte : Datum)
  /-- Lets rolls explode; nothing may have been chosen, and then it fails. -/
  | explode (e : Option Explode)
  | drop (kind : Drop) (num : Datum)
  deriving Repr

namespace Modifier

/-- When the modifier is applied. -/
def weight : Modifier → Nat
  | roll => 0
  | pick _ _ => 0
  | reroll _ => 1
  | explode _ => 2
  | drop kind _ => kind.weight

/-- Whether two modifiers count as equal in order. -/
def sameRank (m n : Modifier) : Bool := m.weight == n.weight

/-- Whether a modifier comes strictly before another one. -/
def before (m n : Modifier) : Bool := m.weight < n.weight

/-- The modifiers in the order of application. -/
def sort (ms : List Modifier) : List Modifier := ms.mergeSort fun m n => m.weight ≤ n.weight

/-- The fields of the modifier. -/
def record : Modifier → String
  | roll => "RollDice()"
  | pick times highest => "PickRoll(times=" ++ times.shown ++ ", highest=" ++ highest.shown ++ ")"
  | reroll lte => "RerollOnce(lte=" ++ lte.shown ++ ")"
  | explode e => "ExplodeDice(explode=" ++ Options.partRecord (e.map .explode) ++ ")"
  | drop kind num => kind.name ++ "(num=" ++ num.shown ++ ")"

/-- The numbers in the record. -/
def recordNumbers : Modifier → List Int
  | roll => []
  | pick times highest => times.numbers ++ highest.numbers
  | reroll lte => lte.numbers
  | explode e => (e.map Explode.recordNumbers).getD []
  | drop _ num => num.numbers

/-! ### Amounts -/

/-- How many values a drop takes. Of the numbers that are not whole only those
that are not positive say so: they take none. -/
def dropCount : Datum → Except Fault Int
  | .number n => .ok n
  | .truth b => .ok (if b then 1 else 0)
  | d => do
    if ← d.atMost (.number 0) then return 0
    throw (.misuse .notAPlace)

/-! ### What each modifier does -/

/-- Leaves a tag, if the numbers in it may be written. -/
def leaveTag (key : Int) (numbers : List Int) (text : String) : Play Unit := do
  let text ← Play.ofExcept (Numeral.publish numbers text)
  Play.update (·.tag key text)

/-- The highest or the lowest of some values. -/
def best? (highest : Bool) (values : List Int) : Option Int :=
  if highest then values.max? else values.min?

/-- Rolls every die of the term. -/
def applyRoll : Play Unit := do
  let n ← Play.number
  let rolls ← Play.dice n
  Play.update ({ · with rolls })

/-- Rolls one die several times and keeps one of the rolls. -/
def applyPick (times highest : Datum) : Play Unit := do
  let n ← Play.ofExcept (Play.timesOf times)
  let samples ← Play.dice n
  Play.update ({ · with samples })
  match best? highest.holds samples with
  | none => throw (.emptyPick highest.holds)
  | some v => Play.update fun h => { h with rolls := [v] }.tag 5 "adv/dis"

/-- Rerolls the low rolls, and tags the hand if any roll was ever replaced. -/
def applyReroll (lte : Datum) : Play Unit := do
  let h ← Play.hand
  let rolls ← Play.rerollEach lte h.rolls
  Play.update ({ · with rolls })
  let h ← Play.hand
  if h.rerolled = 0 then return ()
  leaveTag 3 (lte.numbers ++ [(h.rerolled : Int)])
    ("rr<=" ++ lte.plain ++ " x" ++ toString h.rerolled)

/-- The explosion, which must have been chosen. -/
def chosen : Option Explode → Play Explode
  | some e => pure e
  | none => throw (.misuse (.noPart Datum.nothing.kindName "cap"))

/-- Lets the rolls explode, and tags the hand if any die was ever added. -/
def applyExplode (e : Option Explode) : Play Unit := do
  let h ← Play.hand
  let m ← Play.sides
  let e ← chosen e
  let rolls ← Play.explodeEach e m h.rolls
  Play.update ({ · with rolls })
  let h ← Play.hand
  if h.exploded = 0 then return ()
  leaveTag 4 (e.threshold.numbers ++ [(h.exploded : Int)])
    ("explode@" ++ e.threshold.text ++ " x" ++ toString h.exploded)

/-- Drops so many of the lowest or highest values, and gives them. -/
def dropValues (num : Datum) (high : Bool) : Play (List Int) := do
  let count ← Play.ofExcept (dropCount num)
  let h ← Play.hand
  Play.update (·.drop count high)
  return h.selected count high

/-- Drops values, and tags the hand if the kind of drop has a tag. -/
def applyDrop (kind : Drop) (num : Datum) : Play Unit := do
  let _ ← dropValues num kind.isHigh
  match kind.tag? with
  | none => return ()
  | some (key, letters) => leaveTag key num.numbers (letters ++ num.plain)

/-- Applies the modifier. -/
def apply : Modifier → Play Unit
  | roll => applyRoll
  | pick times highest => applyPick times highest
  | reroll lte => applyReroll lte
  | explode e => applyExplode e
  | drop kind num => applyDrop kind num

/-- Applies the modifiers one after the other. -/
def applyAll : List Modifier → Play Unit
  | [] => pure ()
  | m :: ms => do
    m.apply
    applyAll ms

end Modifier
end DiceRoller
