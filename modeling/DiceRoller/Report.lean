/-
# Reports of failed evaluations

A failed evaluation is reported by its notice: a heading with the kind and the
message, a rule, and below it the expression and the options.

Key definitions: `Report.body`, `Report.text`, `Report.level`.
-/
import DiceRoller.Fault.Notice
import DiceRoller.Options

namespace DiceRoller
namespace Report

/-- The expression and the options of a failed evaluation. -/
def body (expression : Datum) (options : Option Options) : Except Fault String := do
  let e ← expression.write
  let failed := "Failed to evaluate: " ++ e
  match options with
  | none => return failed
  | some o =>
    let record ← Numeral.publish o.recordNumbers o.record
    return failed ++ "\n    Options: " ++ record

/-- The rule below the heading. -/
def rule : String := "===================="

/-- The report of a notice. -/
def text (notice : Notice) (expression : Datum) (options : Option Options) :
    Except Fault String := do
  let below ← body expression options
  return "\n" ++ notice.kind.name ++ ": " ++ notice.message ++ "\n" ++ rule ++ "\n" ++ below

/-- The level of a report: the one that the notice asks for, else the given
one. It must be a name. -/
def level (notice : Notice) (otherwise : Datum) : Except Fault String :=
  match notice.level?.getD otherwise with
  | .text name => .ok name
  | d => .error (.misuse (.notName d.kindName))

end Report
end DiceRoller
