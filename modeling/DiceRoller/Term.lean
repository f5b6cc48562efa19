/-
# Terms: signed constants and signed dice

A term is a constant or a number of equal dice, of which some of the lowest
may be dropped right away. Dice make sense only if there is at least one, each
with at least two sides, and if not all of them are dropped: `DiceTerm` holds
the proofs, and `DiceTerm.make` asks in that order.

Each term has two texts: the way it is spelt in an expression (`text`) and the
full record of its fields that reports give (`record`). `textNumbers` and
`recordNumbers` list the numbers written in them.

Key definitions: `ConstantTerm`, `DiceTerm`, `DiceTerm.make`, `Term`, `SignedUnit`.
Key theorem: `DiceTerm.make_eq_ok_iff`.
-/
import DiceRoller.Sign
import DiceRoller.Text.Numeral

namespace DiceRoller

/-- The character that shows the sign of a factor. -/
def signChar (sign : Int) : Char := if sign < 0 then '-' else '+'

/-- A constant that is added or subtracted. -/
structure ConstantTerm where
  sign : Int
  value : Int
  deriving DecidableEq, Repr

namespace ConstantTerm

/-- What the term contributes to the total. -/
def signedValue (t : ConstantTerm) : Int := t.sign * t.value

/-- The term as it is spelt in an expression. -/
def text (t : ConstantTerm) : String := (signChar t.sign).toString ++ toString t.value

/-- The numbers in the text. -/
def textNumbers (t : ConstantTerm) : List Int := [t.value]

/-- The fields of the term. -/
def record (t : ConstantTerm) : String :=
  "FlatTerm(sign=" ++ toString t.sign ++ ", value=" ++ toString t.value ++ ")"

/-- The numbers in the record. -/
def recordNumbers (t : ConstantTerm) : List Int := [t.sign, t.value]

end ConstantTerm

/-- A number of dice with the same number of sides. -/
structure DiceTerm where
  sign : Int
  number : Nat
  sides : Nat
  /-- How many of the lowest are dropped as part of the term itself. -/
  drop : Nat
  one_le_number : 1 ≤ number
  two_le_sides : 2 ≤ sides
  drop_lt_number : drop < number
  deriving DecidableEq, Repr

namespace DiceTerm

/-- The term with the given numbers, or the first thing wrong with them. -/
def make (sign number sides drop : Int) : Except Fault DiceTerm :=
  if number < 1 then .error (.invalidDiceCount number)
  else if sides < 2 then .error (.invalidSideCount sides)
  else if h : 1 ≤ number ∧ 2 ≤ sides ∧ 0 ≤ drop ∧ drop < number then
    .ok ⟨sign, number.toNat, sides.toNat, drop.toNat, by omega, by omega, by omega⟩
  else .error (Numeral.raise (.invalidDropCount drop number))

/-- A term is made exactly of numbers that make sense. -/
theorem make_eq_ok_iff {sign number sides drop : Int} {t : DiceTerm} :
    make sign number sides drop = .ok t ↔
      t.sign = sign ∧ (t.number : Int) = number ∧ (t.sides : Int) = sides ∧
        (t.drop : Int) = drop := by
  obtain ⟨s, n, m, d, h1, h2, h3⟩ := t
  unfold make
  split
  · simp; omega
  split
  · simp; omega
  split
  · simp only [Except.ok.injEq, DiceTerm.mk.injEq]; omega
  · simp; omega

/-- The term as it is spelt in an expression. -/
def text (t : DiceTerm) : String :=
  (signChar t.sign).toString ++ toString t.number ++ "d" ++ toString t.sides
    ++ (if t.drop = 0 then "" else "dl" ++ toString t.drop)

/-- The numbers in the text. -/
def textNumbers (t : DiceTerm) : List Int := [t.number, t.sides, t.drop]

/-- The fields of the term. -/
def record (t : DiceTerm) : String :=
  "DiceTerm(sign=" ++ toString t.sign ++ ", number=" ++ toString t.number ++ ", sides="
    ++ toString t.sides ++ ", inline_drop_lowest=" ++ toString t.drop ++ ")"

/-- The numbers in the record. -/
def recordNumbers (t : DiceTerm) : List Int := [t.sign, t.number, t.sides, t.drop]

end DiceTerm

/-- A term of an expression. -/
inductive Term where
  | constant (t : ConstantTerm)
  | dice (t : DiceTerm)
  deriving DecidableEq, Repr

namespace Term

/-- The factor of the term. -/
def sign : Term → Int
  | constant t => t.sign
  | dice t => t.sign

/-- The term as it is spelt in an expression. -/
def text : Term → String
  | constant t => t.text
  | dice t => t.text

/-- The numbers in the text. -/
def textNumbers : Term → List Int
  | constant t => t.textNumbers
  | dice t => t.textNumbers

/-- The fields of the term. -/
def record : Term → String
  | constant t => t.record
  | dice t => t.record

/-- The numbers in the record. -/
def recordNumbers : Term → List Int
  | constant t => t.recordNumbers
  | dice t => t.recordNumbers

end Term

/-- A term, or a sign that stands alone. Two of them are equal only if they
are of one kind and agree in all fields. -/
inductive SignedUnit where
  | alone (sign : Int)
  | term (t : Term)
  deriving DecidableEq, Repr

namespace SignedUnit

/-- The factor of the unit. -/
def sign : SignedUnit → Int
  | alone sign => sign
  | term t => t.sign

/-- The dice of the unit, if it is some. -/
def dice? : SignedUnit → Option DiceTerm
  | term (.dice t) => some t
  | _ => none

/-- The kind of the unit, as messages name it. -/
def kindName : SignedUnit → String
  | alone _ => "Term"
  | term (.constant _) => "FlatTerm"
  | term (.dice _) => "DiceTerm"

/-- The fields of the unit. -/
def record : SignedUnit → String
  | alone sign => "Term(sign=" ++ toString sign ++ ")"
  | term t => t.record

/-- The numbers in the record. -/
def recordNumbers : SignedUnit → List Int
  | alone sign => [sign]
  | term t => t.recordNumbers

/-- The unit as it is displayed: a sign by its fields, a term as it is spelt. -/
def text : SignedUnit → String
  | alone sign => (alone sign).record
  | term t => t.text

/-- The numbers in the text. -/
def textNumbers : SignedUnit → List Int
  | alone sign => (alone sign).recordNumbers
  | term t => t.textNumbers

end SignedUnit
end DiceRoller
