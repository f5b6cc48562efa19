/-
# Faults: why an expression, an option or a draw is refused

Every function of the library that can fail says why by a `Fault`, a cause
with the values it is about. Its wording is one function, `Fault.message`,
which never fails: whether the numbers in it may be written at all is asked
by the one who raises it (`Fault.numbers`, `Numeral.raise`).

Key definitions: `OptionProblem`, `TemplateProblem`, `Misuse`, `Fault`,
`Fault.message`, `Fault.numbers`.
-/

namespace DiceRoller

/-- What is wrong with a value given to an option. The text `got` is the
value as it is quoted in the message. -/
inductive OptionProblem where
  /-- A count is no whole number, or is negative. -/
  | badCount (name : String) (got : String)
  /-- The highest value to reroll is no whole number. -/
  | badReroll (got : String)
  /-- An explosion starts neither at the highest face nor at a number. -/
  | badThreshold (got : String)
  /-- A pick of fewer than two rolls. -/
  | badTimes (got : String)
  deriving DecidableEq, Repr

/-- The text of the option fault. -/
def OptionProblem.message : OptionProblem → String
  | .badCount name got => name ++ " must be an integer >= 0, got: " ++ got
  | .badReroll got => "Reroll threshold must be an integer, got: " ++ got
  | .badThreshold got => "Explode threshold must be 'max' or an integer, got: " ++ got
  | .badTimes got => "Times must be an integer >= 2, got: " ++ got

/-- Why a range cannot be drawn from by a generator of 64-bit words. -/
inductive RangeProblem where
  | lowTooSmall
  | highTooLarge
  /-- The range starts at zero and ends below it. -/
  | negativeHigh
  | reversed
  deriving DecidableEq, Repr

/-- The text of the range fault. -/
def RangeProblem.message : RangeProblem → String
  | .lowTooSmall => "low is out of bounds for int64"
  | .highTooLarge => "high is out of bounds for int64"
  | .negativeHigh => "high < 0"
  | .reversed => "low > high"

/-- Why a number cannot be put into a text that is a template. -/
inductive TemplateProblem where
  /-- The template ends within a directive. -/
  | incomplete
  /-- A directive asks for a value by its name. -/
  | named
  /-- There are more places than numbers. -/
  | placesLeft
  /-- There is no place for the number. -/
  | numberLeft
  /-- A character does not end a directive; how it is shown, its code and its
  place in the template. -/
  | badConversion (display : String) (code : String) (place : Nat)
  | widthTooBig
  | precisionTooBig
  /-- There is not room for so many digits. -/
  | precisionTooLarge
  /-- The number is the code of no character. -/
  | noCharacter
  /-- The number is too large to be a width or a precision. -/
  | numberTooLarge (holder : String)
  deriving DecidableEq, Repr

/-- The text of the template fault. -/
def TemplateProblem.message : TemplateProblem → String
  | .incomplete => "incomplete format"
  | .named => "format requires a mapping"
  | .placesLeft => "not enough arguments for format string"
  | .numberLeft => "not all arguments converted during string formatting"
  | .badConversion display code place =>
    "unsupported format character '" ++ display ++ "' (0x" ++ code ++ ") at index "
      ++ toString place
  | .widthTooBig => "width too big"
  | .precisionTooBig => "precision too big"
  | .precisionTooLarge => "precision too large"
  | .noCharacter => "%c arg not in range(0x110000)"
  | .numberTooLarge holder => "Python int too large to convert to C " ++ holder

/-- How values do not fit the way they are used. Kinds of values are given by
their names. -/
inductive Misuse where
  /-- A call leaves out the values of these names. -/
  | missing (call : String) (names : List String)
  /-- A call gives more values than the most it takes; the least and the most
  are the same where all are needed. -/
  | tooMany (call : String) (least most given : Nat)
  /-- A call leaves out the value of this name, which it takes by name only. -/
  | missingNamed (call name : String)
  /-- A call that takes no values gives some. -/
  | takesNothing (call : String)
  /-- A call gives a value of a name that it does not know. -/
  | unknownName (call name : String)
  /-- A value of the kind has no part of the name. -/
  | noPart (kind name : String)
  /-- Values of the two kinds are not ordered. -/
  | unordered (relation left right : String)
  /-- Values of the two kinds cannot be joined by the operation. -/
  | noOperation (operation left right : String)
  /-- A value of the kind cannot say how often something is done. -/
  | notWhole (kind : String)
  /-- A value of the kind cannot say how often a text or a list is repeated. -/
  | noMultiple (kind : String)
  /-- A number that is not whole cannot say how many values are taken. -/
  | notAPlace
  /-- A value of the kind is no bound of a range. -/
  | notABound (kind : String)
  /-- A value of the kind does not continue a text. -/
  | notText (kind : String)
  /-- A value of the kind is no name of a level. -/
  | notName (kind : String)
  deriving DecidableEq, Repr

namespace Misuse

/-- The names in quotes, as they are enumerated. -/
def enumerate : List String → String
  | [] => ""
  | [a] => "'" ++ a ++ "'"
  | [a, b] => "'" ++ a ++ "' and '" ++ b ++ "'"
  | a :: rest => "'" ++ a ++ "', " ++ enumerate rest

/-- So many values by position. -/
def positional (n : Nat) : String :=
  toString n ++ (if n = 1 then " positional argument" else " positional arguments")

/-- The text of the misuse. -/
def message : Misuse → String
  | missing call names =>
    call ++ "() missing " ++ toString names.length
      ++ (if names.length = 1 then " required positional argument: "
          else " required positional arguments: ")
      ++ enumerate names
  | tooMany call least most given =>
    call ++ "() takes "
      ++ (if least = most then positional most
          else "from " ++ toString least ++ " to " ++ positional most)
      ++ " but " ++ toString given ++ " were given"
  | missingNamed call name =>
    call ++ "() missing 1 required keyword-only argument: '" ++ name ++ "'"
  | takesNothing call => call ++ "() takes no arguments"
  | unknownName call name =>
    call ++ "() got an unexpected keyword argument '" ++ name ++ "'"
  | noPart kind name => "'" ++ kind ++ "' object has no attribute '" ++ name ++ "'"
  | unordered relation left right =>
    "'" ++ relation ++ "' not supported between instances of '" ++ left ++ "' and '" ++ right ++ "'"
  | noOperation operation left right =>
    "unsupported operand type(s) for " ++ operation ++ ": '" ++ left ++ "' and '" ++ right ++ "'"
  | notWhole kind => "'" ++ kind ++ "' object cannot be interpreted as an integer"
  | noMultiple kind => "can't multiply sequence by non-int of type '" ++ kind ++ "'"
  | notAPlace => "slice indices must be integers or None or have an __index__ method"
  | notABound kind =>
    "int() argument must be a string, a bytes-like object or a real number, not '" ++ kind ++ "'"
  | notText kind => "can only concatenate str (not \"" ++ kind ++ "\") to str"
  | notName kind => "attribute name must be string, not '" ++ kind ++ "'"

end Misuse

/-- The causes of failure of the library. -/
inductive Fault where
  /-- The expression is empty or is no text. -/
  | invalidExpression
  /-- The expression holds nothing but blanks. -/
  | emptyExpression
  /-- The expression ends in a sign. -/
  | trailingSign
  /-- Two signs follow each other, the first of them at this place from 1. -/
  | consecutiveSigns (position : Nat)
  /-- A term holds nothing but blanks and at most one sign. -/
  | emptyTerm
  | invalidDiceCount (count : Int)
  | invalidSideCount (sides : Int)
  | invalidDropCount (count number : Int)
  /-- A term is spelt in none of the known shapes. -/
  | unrecognizedTerm (text : String)
  | invalidOption (problem : OptionProblem)
  /-- A script of that many values has none left. -/
  | scriptExhausted (length : Nat)
  /-- The next value of a script is outside the range asked for. -/
  | scriptedValueOutOfRange (value low high : Int)
  /-- The next value of a script is outside bounds that are no whole numbers,
  given as they are written. -/
  | scriptedValueOutside (value : Int) (low high : String)
  /-- A numeral of that many digits is too long to be read. -/
  | numeralTooLongToRead (digits : Nat)
  /-- A text, as it is quoted in the message, is no numeral. -/
  | invalidNumeral (quoted : String)
  /-- A number has too many digits to be written. -/
  | numeralTooLongToWrite
  /-- The best of no rolls was asked for. -/
  | emptyPick (highest : Bool)
  | badRange (problem : RangeProblem)
  /-- A chain of draws goes on past every state of its source. -/
  | endless
  /-- A whole number is asked for where there is no number at all. -/
  | notANumber
  /-- A whole number is asked for where there is an infinite one. -/
  | infiniteNumber
  /-- A whole number is too large to be a real one. -/
  | tooLargeForReal
  /-- A whole number is too large to count with. -/
  | countTooLarge
  /-- A seed is negative where a generator is to be made from it. -/
  | seedNegative
  /-- There is no file of a name, which is quoted in the message. -/
  | noFile (quoted : String)
  | badTemplate (problem : TemplateProblem)
  /-- A value of an unfit kind. -/
  | misuse (m : Misuse)
  deriving DecidableEq, Repr

namespace Fault

/-- The text of a fault, with all its numbers written out. -/
def message : Fault → String
  | invalidExpression => "Invalid Expression."
  | emptyExpression => "Empty expression."
  | trailingSign => "Expression cannot end with a sign"
  | consecutiveSigns position =>
    "Expression has consecutive signs at position " ++ toString position
  | emptyTerm => "Empty term"
  | invalidDiceCount _ => "Dice count must be >= 1."
  | invalidSideCount _ => "Die sides must be >= 2."
  | invalidDropCount count number =>
    "Drop count must be >= 0 and < dice count (" ++ toString count ++ " >= "
      ++ toString number ++ ")."
  | unrecognizedTerm text => "Bad term: " ++ text
  | invalidOption problem => problem.message
  | scriptExhausted length =>
    "Scripted source exhausted after " ++ toString length ++ " values."
  | scriptedValueOutOfRange value low high =>
    "Scripted value " ++ toString value ++ " not in [" ++ toString low ++ ", "
      ++ toString high ++ "]."
  | scriptedValueOutside value low high =>
    "Scripted value " ++ toString value ++ " not in [" ++ low ++ ", " ++ high ++ "]."
  | numeralTooLongToRead digits =>
    "Exceeds the limit (4300 digits) for integer string conversion: value has "
      ++ toString digits ++ " digits; use sys.set_int_max_str_digits() to increase the limit"
  | invalidNumeral quoted => "invalid literal for int() with base 10: " ++ quoted
  | numeralTooLongToWrite =>
    "Exceeds the limit (4300 digits) for integer string conversion; "
      ++ "use sys.set_int_max_str_digits() to increase the limit"
  | emptyPick highest => (if highest then "max" else "min") ++ "() arg is an empty sequence"
  | badRange problem => problem.message
  | endless => "The chain of draws never ends."
  | notANumber => "cannot convert float NaN to integer"
  | infiniteNumber => "cannot convert float infinity to integer"
  | tooLargeForReal => "int too large to convert to float"
  | countTooLarge => "cannot fit 'int' into an index-sized integer"
  | seedNegative => "expected non-negative integer"
  | noFile quoted => "[Errno 2] No such file or directory: " ++ quoted
  | badTemplate problem => problem.message
  | misuse m => m.message

/-- The numbers that the message of a fault writes, apart from those that
count characters, tokens or values and so are always short. -/
def numbers : Fault → List Int
  | invalidDropCount count number => [count, number]
  | scriptedValueOutOfRange value low high => [value, low, high]
  | scriptedValueOutside value _ _ => [value]
  | _ => []

end Fault

end DiceRoller
