/-
# Kinds of faults

The kinds of faults of the library form a tree. At its root is every failure
of an evaluation; below it stand the failures that a user causes and the
internal ones. A fault of a kind is also a fault of each kind above it.

Key definitions: `Kind`, `Kind.parent?`, `Kind.lineage`, `Kind.name`,
`Kind.isDice`, `TemplateProblem.kind`, `Fault.kind`.
Key theorem: `Kind.lineage_eq`.
-/
import DiceRoller.Fault

namespace DiceRoller

/-- The kinds of faults. The last five are outside the tree of the library:
an unfit value, a value of a kind that does not fit, a value without the part
that is asked for, a number too large for its place, and a file that is missing. -/
inductive Kind where
  | dice
  | user
  | argumentParse
  | argumentHelp
  | invalidOption
  | eval
  | emptyExpression
  | trailingSign
  | consecutiveSigns
  | parse
  | emptyTerm
  | invalidDiceCount
  | invalidSideCount
  | invalidDropCount
  | unrecognizedTerm
  | internal
  | sourceExhausted
  | scriptedValueOutOfRange
  | value
  | type
  | absence
  | overflow
  | missingFile
  deriving DecidableEq, Repr

namespace Kind

/-- The name of the kind, as reports give it. -/
def name : Kind → String
  | dice => "DiceException"
  | user => "UserException"
  | argumentParse => "ArgumentParseError"
  | argumentHelp => "ArgumentHelpError"
  | invalidOption => "InvalidOption"
  | eval => "EvalError"
  | emptyExpression => "EmptyExpression"
  | trailingSign => "TrailingSign"
  | consecutiveSigns => "ConsecutiveSigns"
  | parse => "ParseError"
  | emptyTerm => "EmptyTerm"
  | invalidDiceCount => "InvalidDiceCount"
  | invalidSideCount => "InvalidSideCount"
  | invalidDropCount => "InvalidDropCount"
  | unrecognizedTerm => "UnrecognizedTerm"
  | internal => "InternalException"
  | sourceExhausted => "SourceExhausted"
  | scriptedValueOutOfRange => "ScriptedValueOutOfRange"
  | value => "ValueError"
  | type => "TypeError"
  | absence => "AttributeError"
  | overflow => "OverflowError"
  | missingFile => "FileNotFoundError"

/-- All kinds. -/
def all : List Kind :=
  [dice, user, argumentParse, argumentHelp, invalidOption, eval, emptyExpression, trailingSign,
   consecutiveSigns, parse, emptyTerm, invalidDiceCount, invalidSideCount, invalidDropCount,
   unrecognizedTerm, internal, sourceExhausted, scriptedValueOutOfRange, value, type,
   absence, overflow, missingFile]

/-- The kind with the given name. -/
def ofName? (name : String) : Option Kind := all.find? (·.name == name)

/-- The kind right above. -/
def parent? : Kind → Option Kind
  | dice | value | type | absence | overflow | missingFile => none
  | user | internal => some dice
  | argumentParse | argumentHelp | invalidOption | eval => some user
  | emptyExpression | trailingSign | consecutiveSigns | parse => some eval
  | emptyTerm | invalidDiceCount | invalidSideCount | invalidDropCount | unrecognizedTerm =>
    some parse
  | sourceExhausted | scriptedValueOutOfRange => some internal

/-- How far a kind is below the root. -/
def depth : Kind → Nat
  | dice | value | type | absence | overflow | missingFile => 0
  | user | internal => 1
  | argumentParse | argumentHelp | invalidOption | eval
  | sourceExhausted | scriptedValueOutOfRange => 2
  | emptyExpression | trailingSign | consecutiveSigns | parse => 3
  | emptyTerm | invalidDiceCount | invalidSideCount | invalidDropCount | unrecognizedTerm => 4

/-- The kinds from the given one up, at most `n` steps. -/
def lineageUpTo : Nat → Kind → List Kind
  | 0, k => [k]
  | n + 1, k => k :: (k.parent?.map (lineageUpTo n)).getD []

/-- The kinds from the given one up to the root of its tree. -/
def lineage (k : Kind) : List Kind := lineageUpTo k.depth k

/-- A kind stands in front of the lineage of its parent. -/
theorem lineage_eq (k : Kind) : k.lineage = k :: (k.parent?.map lineage).getD [] := by
  cases k <;> rfl

/-- Whether the kind belongs to the tree of the library. -/
def isDice (k : Kind) : Bool := k.lineage.contains dice

end Kind

/-- The kind of a template fault. -/
def TemplateProblem.kind : TemplateProblem → Kind
  | .incomplete | .badConversion _ _ _ | .widthTooBig | .precisionTooBig => .value
  | .named | .placesLeft | .numberLeft => .type
  | .precisionTooLarge | .noCharacter | .numberTooLarge _ => .overflow

/-- The kind of a fault. -/
def Fault.kind : Fault → Kind
  | .invalidExpression | .emptyExpression => .emptyExpression
  | .trailingSign => .trailingSign
  | .consecutiveSigns _ => .consecutiveSigns
  | .emptyTerm => .emptyTerm
  | .invalidDiceCount _ => .invalidDiceCount
  | .invalidSideCount _ => .invalidSideCount
  | .invalidDropCount _ _ => .invalidDropCount
  | .unrecognizedTerm _ => .unrecognizedTerm
  | .invalidOption _ => .invalidOption
  | .scriptExhausted _ => .sourceExhausted
  | .scriptedValueOutOfRange _ _ _ | .scriptedValueOutside _ _ _ => .scriptedValueOutOfRange
  | .numeralTooLongToRead _ | .invalidNumeral _ | .numeralTooLongToWrite | .emptyPick _
  | .badRange _ | .endless | .notANumber | .seedNegative => .value
  | .infiniteNumber | .tooLargeForReal | .countTooLarge => .overflow
  | .noFile _ => .missingFile
  | .badTemplate problem => problem.kind
  | .misuse (.noPart _ _) => .absence
  | .misuse _ => .type

end DiceRoller
