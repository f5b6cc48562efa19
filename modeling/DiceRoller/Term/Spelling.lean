/-
# Spellings of terms

A term is spelt in one of five shapes, in lower case and without its sign:

    d%        a die with a hundred sides
    NdMdlK    N dice with M sides, without the K lowest
    NdM       N dice with M sides
    dM        one die with M sides
    K         a constant

N, M and K are runs of ASCII digits, at least one each. No text has two of the
shapes, so the order in which they are tried does not matter.

Key definitions: `Shape`, `Spelling`, `Shape.read?`, `Spelling.term`.
-/
import DiceRoller.Term

namespace DiceRoller

/-- The shapes of terms. -/
inductive Shape where
  | percentile
  | dropDice
  | dice
  | singleDie
  | constant
  deriving DecidableEq, Repr

/-- The shapes in the order in which they are tried. -/
def Shape.all : List Shape := [.percentile, .dropDice, .dice, .singleDie, .constant]

/-- A term as it is spelt: its shape and its runs of digits. -/
inductive Spelling where
  | percentile
  | dropDice (number sides drop : List Char)
  | dice (number sides : List Char)
  | singleDie (sides : List Char)
  | constant (value : List Char)
  deriving DecidableEq, Repr

/-- The run of digits at the start of a text, if it has one, and the rest. -/
def digitRun? (s : List Char) : Option (List Char × List Char) :=
  match s.takeWhile Char.isDigit with
  | [] => none
  | d :: ds => some (d :: ds, s.dropWhile Char.isDigit)

/-- The spelling of a text in the given shape. -/
def Shape.read? : Shape → List Char → Option Spelling
  | .percentile, s => if s = ['d', '%'] then some .percentile else none
  | .dropDice, s =>
    match digitRun? s with
    | some (number, 'd' :: s) =>
      match digitRun? s with
      | some (sides, 'd' :: 'l' :: s) =>
        match digitRun? s with
        | some (drop, []) => some (.dropDice number sides drop)
        | _ => none
      | _ => none
    | _ => none
  | .dice, s =>
    match digitRun? s with
    | some (number, 'd' :: s) =>
      match digitRun? s with
      | some (sides, []) => some (.dice number sides)
      | _ => none
    | _ => none
  | .singleDie, s =>
    match s with
    | 'd' :: s =>
      match digitRun? s with
      | some (sides, []) => some (.singleDie sides)
      | _ => none
    | _ => none
  | .constant, s =>
    match digitRun? s with
    | some (value, []) => some (.constant value)
    | _ => none

namespace Spelling

/-- The spelling of a text in the first shape that it has. -/
def read? (s : List Char) : Option Spelling := Shape.all.findSome? (·.read? s)

/-- The runs of digits, from left to right. -/
def groups : Spelling → List (List Char)
  | percentile => []
  | dropDice number sides drop => [number, sides, drop]
  | dice number sides => [number, sides]
  | singleDie sides => [sides]
  | constant value => [value]

/-- The text that is spelt so. -/
def chars : Spelling → List Char
  | percentile => ['d', '%']
  | dropDice number sides drop => number ++ 'd' :: sides ++ 'd' :: 'l' :: drop
  | dice number sides => number ++ 'd' :: sides
  | singleDie sides => 'd' :: sides
  | constant value => value

/-- The term that is spelt so, with the given sign. -/
def term (sign : Sign) : Spelling → Except Fault Term
  | percentile => do
    let t ← DiceTerm.make sign.factor 1 100 0
    return .dice t
  | dropDice number sides drop => do
    let n ← Numeral.ofDigits number
    let m ← Numeral.ofDigits sides
    let k ← Numeral.ofDigits drop
    let t ← DiceTerm.make sign.factor n m k
    return .dice t
  | dice number sides => do
    let n ← Numeral.ofDigits number
    let m ← Numeral.ofDigits sides
    let t ← DiceTerm.make sign.factor n m 0
    return .dice t
  | singleDie sides => do
    let m ← Numeral.ofDigits sides
    let t ← DiceTerm.make sign.factor 1 m 0
    return .dice t
  | constant value => do
    let k ← Numeral.ofDigits value
    return .constant ⟨sign.factor, k⟩

end Spelling
end DiceRoller
