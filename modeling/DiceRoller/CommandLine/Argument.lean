/-
# Arguments: what each word of the command line is

Before anything is done, each argument is classified from left to right: a
divider, an operand, an option with or without a value in the same word, or an
unknown option. Long names may be shortened as long as they are unambiguous.
After the first divider `--` everything is an operand. What looks like a
negative number or holds a space is an operand too, unless it names an option.

Key definitions: `Flag`, `Switch`, `Piece`, `Refusal`, `classify`,
`classifyAll`.
-/
import DiceRoller.CommandLine.Value

namespace DiceRoller
namespace CommandLine

/-- The options that take a value. -/
inductive Flag where
  | seed
  | dropLowest
  | dropHighest
  | reroll
  | explode
  | advantage
  | disadvantage
  deriving DecidableEq, Repr

namespace Flag

/-- All flags, in the order of the help text. -/
def all : List Flag :=
  [seed, dropLowest, dropHighest, reroll, explode, advantage, disadvantage]

/-- The name of the flag on the command line. -/
def name : Flag → String
  | seed => "--seed"
  | dropLowest => "--dl"
  | dropHighest => "--dh"
  | reroll => "--rrlte"
  | explode => "--explode"
  | advantage => "--adv"
  | disadvantage => "--dis"

end Flag

/-- What an option asks for. -/
inductive Switch where
  /-- Help, by its short name. -/
  | shortHelp
  /-- Help, by its long name. -/
  | help
  | flag (f : Flag)
  deriving DecidableEq, Repr

namespace Switch

/-- The name of the option. -/
def name : Switch → String
  | shortHelp => "-h"
  | help => "--help"
  | flag f => f.name

/-- The options with long names. -/
def long : List Switch := help :: Flag.all.map flag

/-- The option with exactly the given name. -/
def ofName? (name : List Char) : Option Switch :=
  (shortHelp :: long).find? fun s => s.name.toList == name

end Switch

/-- Why the arguments are refused. -/
inductive Refusal where
  /-- A shortened name could be any of several. -/
  | ambiguous (argument : String) (names : List String)
  /-- A flag comes without its value. -/
  | noValue (flag : Flag)
  | badValue (flag : Flag) (problem : ValueProblem)
  /-- Help is given a value. -/
  | helpValue (text : String)
  /-- There is no expression. -/
  | noSpec
  /-- Arguments are left over. -/
  | unrecognized (arguments : List String)
  deriving DecidableEq, Repr

/-- The text of the refusal. -/
def Refusal.message : Refusal → String
  | ambiguous argument names =>
    "ambiguous option: " ++ argument ++ " could match " ++ ", ".intercalate names
  | noValue flag => "argument " ++ flag.name ++ ": expected one argument"
  | badValue flag problem => "argument " ++ flag.name ++ ": " ++ problem.message
  | helpValue text => "argument -h/--help: ignored explicit argument " ++ Quoted.text text
  | noSpec => "the following arguments are required: spec"
  | unrecognized arguments => "unrecognized arguments: " ++ " ".intercalate arguments

/-- What an argument is. -/
inductive Piece where
  /-- The first `--`. -/
  | divider
  | operand (text : String)
  /-- An option, with the value that stands in the same word. -/
  | switch (s : Switch) (value : Option String)
  | unknown (text : String)
  deriving DecidableEq, Repr

/-- The text before the first equals sign, and the text after it if there is
one. -/
def cutAtEquals : List Char → List Char × Option String
  | [] => ([], none)
  | '=' :: rest => ([], some (String.ofList rest))
  | c :: rest => (c :: (cutAtEquals rest).1, (cutAtEquals rest).2)

/-- Whether there is at least one character and all of them are digits. -/
def isDigitRun (s : List Char) : Bool := !s.isEmpty && s.all Digit.isDigit

/-- Whether the text is digits, or digits with one point among them that is
not the last character. -/
def isDecimal (s : List Char) : Bool :=
  isDigitRun s ||
    match s.dropWhile Digit.isDigit with
    | '.' :: rest => isDigitRun rest
    | _ => false

/-- The text without a line feed at its end. -/
def dropLastLineFeed (s : List Char) : List Char :=
  if s.getLast? = some '\n' then s.dropLast else s

/-- Whether an argument looks like a negative number. A line feed at the end
does not count. -/
def isNegativeNumber : List Char → Bool
  | '-' :: rest => isDecimal (dropLastLineFeed rest)
  | _ => false

/-- An argument that begins with a dash and names no option. -/
def unnamed (argument : String) : Piece :=
  if isNegativeNumber argument.toList || argument.toList.contains ' ' then .operand argument
  else .unknown argument

/-- An argument that begins with two dashes: the part before an equals sign
may be a shortened name. -/
def shortened (argument : String) : Except Refusal Piece :=
  let (head, value) := cutAtEquals argument.toList
  match Switch.long.filter fun s => head.isPrefixOf s.name.toList with
  | [] => .ok (unnamed argument)
  | [s] => .ok (.switch s value)
  | ss => .error (.ambiguous argument (ss.map Switch.name))

/-- The option that an argument names in full, with its value. -/
def named? (argument : String) : Option Piece :=
  match Switch.ofName? argument.toList with
  | some s => some (.switch s none)
  | none =>
    match cutAtEquals argument.toList with
    | (head, some value) => (Switch.ofName? head).map fun s => .switch s (some value)
    | (_, none) => none

/-- What an argument before the divider is. -/
def classify (argument : String) : Except Refusal Piece :=
  match argument.toList with
  | ['-'] => .ok (.operand argument)
  | '-' :: rest =>
    match named? argument with
    | some piece => .ok piece
    | none =>
      match rest with
      | '-' :: _ => shortened argument
      | 'h' :: value => .ok (.switch .shortHelp (some (String.ofList value)))
      | _ => .ok (unnamed argument)
  | _ => .ok (.operand argument)

/-- What the arguments are. -/
def classifyAll : List String → Except Refusal (List Piece)
  | [] => .ok []
  | argument :: rest =>
    if argument = "--" then .ok (.divider :: rest.map .operand)
    else do
      let piece ← classify argument
      let pieces ← classifyAll rest
      return piece :: pieces

end CommandLine
end DiceRoller
