/-
# Notices: faults as they are announced

A notice is what others see of a fault: its kind, its message, the level at
which it is to be logged, and the details that go with its kind. The faults
of the library have their notices (`Fault.notice`); others can be made of any
kind from the values that a caller hands over (`Notice.make`), as many as the
kind takes (`Kind.signature?`).

Key definitions: `Notice`, `Kind.signature?`, `Notice.make`, `Fault.notice`.
-/
import DiceRoller.Datum
import DiceRoller.Fault.Kind
import DiceRoller.Fault.Signature

namespace DiceRoller

/-- What a notice of the kind is made from; kinds outside the tree of the
library take anything. -/
def Kind.signature? (k : Kind) : Option Signature :=
  match k with
  | .dice | .user | .argumentParse | .argumentHelp | .invalidOption | .eval | .parse =>
    some (of .dice [] 2)
  | .internal | .sourceExhausted | .scriptedValueOutOfRange => some (of .internal ["msg"] 1)
  | .emptyExpression | .trailingSign | .emptyTerm => some (of k [] 1)
  | .consecutiveSigns => some (of k ["position"] 0)
  | .invalidDiceCount => some (of k ["count"] 0)
  | .invalidSideCount => some (of k ["sides"] 0)
  | .invalidDropCount => some (of k ["count", "number"] 0)
  | .unrecognizedTerm => some (of k ["text"] 0)
  | .value | .type | .absence | .overflow | .missingFile => none
where
  /-- The signature of what makes a notice of the kind. -/
  of (k : Kind) (needed : List String) (optional : Nat) : Signature :=
    ⟨k.name ++ ".__init__", needed, optional⟩

/-- A fault as it is announced. -/
structure Notice where
  kind : Kind
  message : String
  /-- The level at which the notice is to be logged, whatever a caller gave for
  it; faults outside the tree of the library leave it to the one who logs. -/
  level? : Option Datum
  /-- What the fault is about, name by name. -/
  details : List (String × Datum)
  deriving Repr

namespace Notice

/-- The level of a notice that says nothing else. -/
def usualLevel : String := "info"

/-- The level of an internal notice that says nothing else. -/
def internalLevel : String := "exception"

/-- A notice of the kind whose message is the datum. -/
def saying (kind : Kind) (message : Datum) (level : Option Datum) : Except Fault Notice := do
  let text ← message.write
  return ⟨kind, text, level, []⟩

/-- The message of a fault that may have been given any number of values. -/
def gathered : List Datum → Except Fault String
  | [] => .ok ""
  | [d] => d.write
  | ds => Numeral.publish (Datum.itemNumbers ds)
      ("(" ++ Datum.commaJoin (Datum.shownItems ds) ++ ")")

/-- A notice of the given kind from the values handed over with it. General
kinds take a message and a level; the kinds of an evaluation with a fixed
wording take a message in its place; the others take what they are about. -/
def make (kind : Kind) (args : List Datum) : Except Fault Notice := do
  match kind.signature? with
  | some s => s.check args.length
  | none => pure ()
  let first := (args[0]?).getD .nothing
  let message (usual : String) := (args[0]?).getD (.text usual)
  let level (usual : String) := some ((args[1]?).getD (.text usual))
  let usual := some (Datum.text usualLevel)
  match kind with
  | .dice | .user | .argumentParse | .argumentHelp | .invalidOption | .eval | .parse =>
    saying kind first (level usualLevel)
  | .internal | .sourceExhausted | .scriptedValueOutOfRange =>
    saying kind first (level internalLevel)
  | .emptyExpression => saying kind (message "Empty expression.") usual
  | .trailingSign => saying kind (message "Expression cannot end with a sign") usual
  | .emptyTerm => saying kind (message "Empty term") usual
  | .consecutiveSigns =>
    let position ← first.write
    return ⟨kind, "Expression has consecutive signs at position " ++ position, usual,
      [("position", first)]⟩
  | .invalidDiceCount =>
    return ⟨kind, "Dice count must be >= 1.", usual, [("count", first)]⟩
  | .invalidSideCount =>
    return ⟨kind, "Die sides must be >= 2.", usual, [("sides", first)]⟩
  | .invalidDropCount =>
    let second := (args[1]?).getD .nothing
    let count ← first.write
    let number ← second.write
    return ⟨kind,
      "Drop count must be >= 0 and < dice count (" ++ count ++ " >= " ++ number ++ ").",
      usual, [("count", first), ("number", second)]⟩
  | .unrecognizedTerm =>
    match first with
    | .text t => return ⟨kind, "Bad term: " ++ t, usual, [("text", first)]⟩
    | d => throw (.misuse (.notText d.kindName))
  | .value | .type | .absence | .overflow | .missingFile =>
    let text ← gathered args
    return ⟨kind, text, none, []⟩

end Notice

/-- What a fault is about, name by name. -/
def Fault.details : Fault → List (String × Datum)
  | .consecutiveSigns position => [("position", .number position)]
  | .invalidDiceCount count => [("count", .number count)]
  | .invalidSideCount sides => [("sides", .number sides)]
  | .invalidDropCount count number => [("count", .number count), ("number", .number number)]
  | .unrecognizedTerm text => [("text", .text text)]
  | _ => []

/-- The level at which a fault is logged. -/
def Fault.level? (f : Fault) : Option String :=
  if f.kind.lineage.contains .internal then some Notice.internalLevel
  else if f.kind.isDice then some Notice.usualLevel
  else none

/-- The notice of a fault. -/
def Fault.notice (f : Fault) : Notice :=
  ⟨f.kind, f.message, f.level?.map .text, f.details⟩

end DiceRoller
