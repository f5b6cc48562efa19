/-
# Values of arguments

The text given to an option of the command is read as the option needs it: a
whole number, a count, a threshold with an optional cap, or sides and times.

Key definitions: `ValueProblem`, `Value.whole`, `Value.count`,
`Value.explosion`, `Value.pick`.
-/
import DiceRoller.Options

namespace DiceRoller
namespace CommandLine

/-- Why the text of a value is refused. -/
inductive ValueProblem where
  | notWhole (text : String)
  | notANumber (text : String)
  | negative (text : String)
  | badThreshold (text : String)
  | badPick (text : String)
  deriving DecidableEq, Repr

/-- The text of the fault. -/
def ValueProblem.message : ValueProblem → String
  | notWhole text => "invalid int value: " ++ Quoted.text text
  | notANumber text => "Expected an integer, got: " ++ text
  | negative text => "Expected an integer >= 0, got: " ++ text
  | badThreshold text => "Bad explode value: " ++ text
  | badPick text => "Bad value: " ++ text ++ " (expected m,times)"

namespace Value

/-- A whole number. -/
def whole (text : String) : Except ValueProblem Int :=
  match Numeral.read? text.toList with
  | some n => .ok n
  | none => .error (.notWhole text)

/-- A number that is not negative. -/
def count (text : String) : Except ValueProblem Nat :=
  match Numeral.read? text.toList with
  | none => .error (.notANumber text)
  | some n => if n < 0 then .error (.negative text) else .ok n.toNat

/-- The text before the first comma, and the text after it. -/
def cutAtComma : List Char → List Char × List Char
  | [] => ([], [])
  | ',' :: rest => ([], rest)
  | c :: rest => (c :: (cutAtComma rest).1, (cutAtComma rest).2)

/-- The threshold of an explosion. -/
def threshold (text : String) : Except ValueProblem Threshold :=
  if text = Threshold.maxWord then .ok .max
  else match Numeral.read? text.toList with
    | some n => .ok (.atLeast n)
    | none => .error (.badThreshold text)

/-- A threshold, with a cap after a comma; no cap, or an empty one, is 0. -/
def explosion (text : String) : Except ValueProblem Explode := do
  let (head, tail) := cutAtComma text.toList
  let t ← threshold (String.ofList head)
  if tail = [] then return ⟨t, 0⟩
  let cap ← count (String.ofList tail)
  return ⟨t, cap⟩

/-- Two whole numbers with a comma between them. -/
def pair? (s : List Char) : Option (Int × Int) := do
  let (head, tail) := cutAtComma s
  let m ← Numeral.read? head
  let n ← Numeral.read? tail
  return (m, n)

/-- Sides and times. -/
def pick (text : String) : Except ValueProblem (Int × Int) :=
  match pair? text.toList with
  | some p => .ok p
  | none => .error (.badPick text)

end Value
end CommandLine
end DiceRoller
