/-
# Options: what is done to every dice term

Each part of the options may be absent and then does nothing. A part is made
from data of any kind (`DropCount.make` and so on), which must be whole
numbers in the right range; what is wrong is said of the first unfit datum.

Key definitions: `DropCount`, `Reroll`, `Threshold`, `Explode`,
`Explode.unbounded`, `Explode.triggers`, `MultiRoll`, `Options`.
Key theorems: `Explode.triggers_of_unbounded`, `Explode.triggersFor_number`,
`MultiRoll.appliesTo_draft`.
-/
import DiceRoller.Term.Draft

namespace DiceRoller

/-- Refuses a datum, which the message of the fault quotes. -/
def refuse {α : Type} (problem : String → OptionProblem) (d : Datum) : Except Fault α := do
  let got ← d.quote
  throw (.invalidOption (problem got))

/-- The count that a datum gives to the option of the given name. -/
def readCount (name : String) : Datum → Except Fault Nat
  | .number n => if 0 ≤ n then .ok n.toNat else refuse (.badCount name) (.number n)
  | d => refuse (.badCount name) d

/-! ### Drops and rerolls -/

/-- Drops so many of the lowest or highest values of every dice term. -/
structure DropCount where
  count : Nat
  deriving DecidableEq, Repr

/-- The drop that a datum asks for. -/
def DropCount.make (count : Datum) : Except Fault DropCount := do
  let n ← readCount "Drop count" count
  return ⟨n⟩

/-- The fields of the part. -/
def DropCount.record (d : DropCount) : String := "DropCount(count=" ++ toString d.count ++ ")"

/-- The numbers in the record. -/
def DropCount.recordNumbers (d : DropCount) : List Int := [d.count]

/-- Rerolls once every die that shows at most `lte`. -/
structure Reroll where
  lte : Int
  deriving DecidableEq, Repr

/-- The reroll that a datum asks for. -/
def Reroll.make : Datum → Except Fault Reroll
  | .number n => .ok ⟨n⟩
  | d => refuse .badReroll d

/-- The fields of the part. -/
def Reroll.record (r : Reroll) : String := "Reroll(lte=" ++ toString r.lte ++ ")"

/-- The numbers in the record. -/
def Reroll.recordNumbers (r : Reroll) : List Int := [r.lte]

/-! ### Explosions -/

/-- Where explosions start: at the highest face, or at a number. -/
inductive Threshold where
  | max
  | atLeast (n : Int)
  deriving DecidableEq, Repr

namespace Threshold

/-- The word for the highest face. -/
def maxWord : String := "max"

/-- The threshold as it is written by itself. -/
def text : Threshold → String
  | max => maxWord
  | atLeast n => toString n

/-- The threshold as it stands among fields. -/
def record : Threshold → String
  | max => "'" ++ maxWord ++ "'"
  | atLeast n => toString n

/-- The number of the threshold, if it has one. -/
def numbers : Threshold → List Int
  | max => []
  | atLeast n => [n]

/-- The threshold that a datum asks for. -/
def make : Datum → Except Fault Threshold
  | .number n => .ok (atLeast n)
  | .text s => if s = maxWord then .ok max else refuse .badThreshold (.text s)
  | d => refuse .badThreshold d

end Threshold

/-- Rolls one more die whenever a die reaches the threshold; each original die
adds at most `cap` dice, any number if `cap` is 0. -/
structure Explode where
  threshold : Threshold
  cap : Nat
  deriving DecidableEq, Repr

namespace Explode

/-- The explosion that two data ask for. -/
def make (threshold cap : Datum) : Except Fault Explode := do
  let t ← Threshold.make threshold
  let c ← readCount "Explode cap" cap
  return ⟨t, c⟩

/-- The explosion of whoever asks for none in particular. -/
def usual : Explode := ⟨.max, 0⟩

/-- Whether a die with the sides that shows the value adds another one. -/
def triggers (e : Explode) (sides value : Int) : Bool :=
  match e.threshold with
  | .max => sides ≤ value
  | .atLeast n => n ≤ value

/-- Whether a die adds another one, if its sides and what it shows are data. -/
def triggersFor (e : Explode) (sides value : Datum) : Except Fault Bool :=
  match e.threshold with
  | .max => value.atLeast sides
  | .atLeast n => value.atLeast (.number n)

/-- Whole numbers trigger as such. -/
theorem triggersFor_number (e : Explode) (sides value : Int) :
    e.triggersFor (.number sides) (.number value) = .ok (e.triggers sides value) := by
  unfold triggersFor triggers
  split
  · exact Datum.atLeast_number value sides
  · exact Datum.atLeast_number value _

/-- Whether every roll would add another die, with nothing to stop it. -/
def unbounded (e : Explode) : Bool :=
  match e.threshold with
  | .max => false
  | .atLeast n => e.cap == 0 && n ≤ 1

/-- The fields of the part. -/
def record (e : Explode) : String :=
  "Explode(threshold=" ++ e.threshold.record ++ ", cap=" ++ toString e.cap ++ ")"

/-- The numbers in the record. -/
def recordNumbers (e : Explode) : List Int := e.threshold.numbers ++ [(e.cap : Int)]

/-- An unbounded explosion is triggered by whatever a die may show. -/
theorem triggers_of_unbounded {e : Explode} (h : e.unbounded = true) {sides value : Int}
    (hv : 1 ≤ value) : e.triggers sides value = true := by
  obtain ⟨t, c⟩ := e
  cases t with
  | max => simp [unbounded] at h
  | atLeast n =>
    simp only [unbounded, Bool.and_eq_true, decide_eq_true_eq] at h
    simp only [triggers, decide_eq_true_eq]
    omega

end Explode

/-! ### Picks -/

/-- Rolls a single die with the sides several times, to keep one of the rolls. -/
structure MultiRoll where
  sides : Nat
  times : Nat
  one_lt_times : 1 < times
  deriving DecidableEq, Repr

namespace MultiRoll

/-- The fault of a pick whose sides are not given. -/
def sidesMissing : Fault := .misuse (.missing "MultiRoll.__init__" ["sides"])

/-- The pick that two data ask for. -/
def make (sides times : Datum) : Except Fault MultiRoll := do
  let m ← readCount "Target sides" sides
  match times with
  | .number n =>
    if h : 2 ≤ n then return ⟨m, n.toNat, by omega⟩
    else refuse .badTimes (.number n)
  | d => refuse .badTimes d

/-- Only single dice with the right number of sides are affected. -/
def applies (m : MultiRoll) (t : DiceTerm) : Bool := t.number == 1 && t.sides == m.sides

/-- Whether a unit is affected, which must be dice. -/
def appliesTo (m : MultiRoll) : Draft → Except Fault Bool
  | .dice _ number sides _ => .ok (number.same (.number 1) && sides.same (.number m.sides))
  | d => .error (.misuse (.noPart d.kindName "number"))

/-- Dice are affected as their draft is. -/
theorem appliesTo_draft (m : MultiRoll) (t : DiceTerm) :
    m.appliesTo t.draft = .ok (m.applies t) := by
  have one : ((t.number : Int) = 1) ↔ t.number = 1 := by omega
  simp only [appliesTo, DiceTerm.draft, applies, Datum.same_number, one, Int.natCast_inj]
  rfl

/-- The fields of the part. -/
def record (m : MultiRoll) : String :=
  "MultiRoll(sides=" ++ toString m.sides ++ ", times=" ++ toString m.times ++ ")"

/-- The numbers in the record. -/
def recordNumbers (m : MultiRoll) : List Int := [m.sides, m.times]

end MultiRoll

/-! ### All of them -/

/-- A part of the options by itself. Two parts are equal only if they are of
one kind and agree in all fields. -/
inductive OptionPart where
  | drop (d : DropCount)
  | reroll (r : Reroll)
  | explode (e : Explode)
  | multiRoll (m : MultiRoll)
  deriving DecidableEq, Repr

namespace OptionPart

/-- The fields of the part. -/
def record : OptionPart → String
  | drop d => d.record
  | reroll r => r.record
  | explode e => e.record
  | multiRoll m => m.record

/-- The numbers in the record. -/
def recordNumbers : OptionPart → List Int
  | drop d => d.recordNumbers
  | reroll r => r.recordNumbers
  | explode e => e.recordNumbers
  | multiRoll m => m.recordNumbers

end OptionPart

/-- The options of an evaluation. -/
structure Options where
  /-- Drops of the lowest values, after those of the term itself. -/
  dropLowest : Option DropCount := none
  /-- Drops of the highest values, last of all. -/
  dropHighest : Option DropCount := none
  reroll : Option Reroll := none
  explode : Option Explode := none
  /-- Keeps the highest of several rolls. -/
  advantage : Option MultiRoll := none
  /-- Keeps the lowest of several rolls. -/
  disadvantage : Option MultiRoll := none
  deriving DecidableEq, Repr

namespace Options

/-- The parts with their names, those that are absent too. -/
def parts (o : Options) : List (String × Option OptionPart) :=
  [("drop_lowest", o.dropLowest.map .drop), ("drop_highest", o.dropHighest.map .drop),
   ("reroll", o.reroll.map .reroll), ("explode", o.explode.map .explode),
   ("advantage", o.advantage.map .multiRoll), ("disadvantage", o.disadvantage.map .multiRoll)]

/-- A part as it stands among fields. -/
def partRecord : Option OptionPart → String
  | none => "None"
  | some p => p.record

/-- The parts of the options. -/
def record (o : Options) : String :=
  "Options(" ++ ", ".intercalate (o.parts.map fun p => p.1 ++ "=" ++ partRecord p.2) ++ ")"

/-- The numbers in the record. -/
def recordNumbers (o : Options) : List Int :=
  o.parts.flatMap fun p => (p.2.map OptionPart.recordNumbers).getD []

end Options
end DiceRoller
