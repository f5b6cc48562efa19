/-
# Numerals: whole numbers as decimal text

A number is written in ASCII digits, a minus sign in front of a negative one.
Texts are limited to `digitLimit` digits both ways: a longer numeral is not
read, and a longer number is not written. Texts in this library are built
without regard to the limit, beside the list of numbers they write; `publish`
then lets a text out only if each of its numbers may be written.

A numeral given as an argument is read more freely (`read`): blanks around it,
one sign, digits of any script, single underscores between digits.

Key definitions: `Numeral.writable`, `Numeral.publish`, `Numeral.raise`,
`Numeral.ofDigits`, `Numeral.read`, `Numeral.read?`.
-/
import DiceRoller.Fault
import DiceRoller.Text.Blank
import DiceRoller.Text.Digit
import DiceRoller.Text.Quoted

namespace DiceRoller
namespace Numeral

/-- The longest numeral, in digits. -/
def digitLimit : Nat := 4300

/-! ### Writing -/

/-- A number may be written if it has no more than `digitLimit` digits. -/
def writable (n : Int) : Bool := n.natAbs < Nat.pow 10 digitLimit

/-- Lets a text out that writes the given numbers, if all of them may be
written. -/
def publish (numbers : List Int) (text : String) : Except Fault String :=
  if numbers.all writable then .ok text else .error .numeralTooLongToWrite

/-- A fault is raised with its message: one whose message cannot be written
is replaced by the fault that says so. -/
def raise (f : Fault) : Fault :=
  if f.numbers.all writable then f else .numeralTooLongToWrite

theorem publish_eq_ok_iff {numbers : List Int} {text out : String} :
    publish numbers text = .ok out ↔ numbers.all writable = true ∧ text = out := by
  by_cases h : numbers.all writable = true <;> simp only [publish, h] <;> simp

/-- A text may be put in front before or after. -/
theorem publish_append (numbers : List Int) (front text : String) :
    (publish numbers text).map (front ++ ·) = publish numbers (front ++ text) := by
  unfold publish
  split <;> rfl

/-! ### Reading -/

/-- The number that a run of ASCII digits denotes, leading zeros counting
towards the limit. -/
def ofDigits (digits : List Char) : Except Fault Nat :=
  if digits.length ≤ digitLimit then .ok (Nat.ofDigitChars 10 digits 0)
  else .error (.numeralTooLongToRead digits.length)

/-- Whether a run of digits and underscores is not empty and has underscores
only between two digits. -/
def wellSeparated : List Char → Bool
  | [] => false
  | '_' :: _ => false
  | [_] => true
  | _ :: '_' :: rest => wellSeparated rest
  | _ :: rest => wellSeparated rest

/-- The number that digits of any script denote; underscores are passed over. -/
def valueOf (run : List Char) : Nat :=
  (run.filterMap Digit.value?).foldl (fun n d => 10 * n + d) 0

/-- The separator controls U+001C to U+001F are blanks between the parts of
an expression, but not around a numeral. -/
def isPadding (c : Char) : Bool :=
  Blank.isBlank c && !(0x1C ≤ c.toNat && c.toNat ≤ 0x1F)

/-- The longest text that is quoted when it is no numeral, in characters. -/
def quoteLimit : Nat := 200

/-- The fault of a text that is no numeral. -/
def invalid (s : List Char) : Fault :=
  .invalidNumeral (String.ofList ((Quoted.chars s).take quoteLimit))

/-- The number that a numeral without a sign denotes; `all` is the text that is
quoted if it is none. Whatever follows the digits is looked at only if there
are not too many of them. -/
def readUnsigned (all s : List Char) : Except Fault Nat :=
  let run := s.takeWhile fun c => Digit.isDigit c || c == '_'
  let count := run.countP Digit.isDigit
  if !wellSeparated run then .error (invalid all)
  else if digitLimit < count then .error (.numeralTooLongToRead count)
  else if run.length < s.length then .error (invalid all)
  else .ok (valueOf run)

/-- The number that an argument denotes. -/
def read (s : List Char) : Except Fault Int :=
  match Blank.trimBy isPadding s with
  | '-' :: rest => (readUnsigned s rest).map fun n => -(n : Int)
  | '+' :: rest => (readUnsigned s rest).map Int.ofNat
  | rest => (readUnsigned s rest).map Int.ofNat

/-- The number that an argument denotes, if it is a numeral that is not too
long. -/
def read? (s : List Char) : Option Int := (read s).toOption

end Numeral
end DiceRoller
