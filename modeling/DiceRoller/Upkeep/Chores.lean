/-
# Chores: the four tasks of the package

Cleaning removes compiled files and what building leaves behind. Installing
gets the programs that the project needs. Testing and measuring coverage first
ask the test program whether it can measure coverage.

Key definitions: `Chores.splitYes`, `Chores.clean`, `Chores.deps`,
`Chores.test`, `Chores.coverage`.
-/
import DiceRoller.Upkeep.Package
import DiceRoller.Upkeep.Task

namespace DiceRoller
namespace Chores

/-- The argument that assumes yes. -/
def yesFlag : String := "--yes"

/-- Whether yes is assumed, and the arguments without the first `--yes`. -/
def splitYes (argv : List String) : Bool × List String :=
  (argv.contains yesFlag, argv.erase yesFlag)

/-- The prompt before anything is changed. -/
def prompt : String := "OK? y/n  "

/-- What is asked of a user whose programs are missing. -/
def advice : String := "Please run: python setup.py deps"

/-! ### Cleaning -/

/-- The command that removes what cleaning finds, and what building always
leaves. -/
def cleanCommand (cwd : String) (folder : Folder) : String :=
  "rm -vrf .eggs .tox build dist " ++ " ".intercalate (folder.find cwd "*.pyc") ++ " "
    ++ " ".intercalate (folder.glob "*.egg-info" ++ folder.glob "*.egg")

/-- Removes compiled files and packed packages after asking. -/
def clean (w : Surroundings) : Task Unit := do
  let dir ← Task.cwd
  let command := cleanCommand dir w.folder
  Task.print ("Executing: " ++ command)
  let answer ← Task.ask w prompt
  if Task.agrees answer then Task.run w command

/-! ### Installing -/

/-- The longest time for installing, in seconds. -/
def installLimit : Nat := 150

/-- The command that installs what the package needs. -/
def installCommand : String :=
  "pip install -U "
    ++ " ".intercalate (Package.standard.runNeeds ++ Package.standard.testNeeds)

/-- Whether installing is wanted: a word given beforehand stands for the
answer as it is, unless what is given counts as false. -/
def wanted (w : Surroundings) (force : Datum) : Task Bool :=
  if force.holds then
    match force with
    | .text word => return word.toList.head? == some 'y'
    | d => throw (.misuse (.noPart d.kindName "startswith"))
  else do
    let answer ← Task.ask w prompt
    return Task.agrees answer

/-- Installs what the package needs. -/
def deps (w : Surroundings) (force : Datum) : Task Unit := do
  Task.print "Installing/Upgrading runtime & testing dependencies"
  Task.print ("Executing: " ++ installCommand)
  if ← wanted w force then
    Task.start w installCommand (if w.assumeYes then .nowhere else .inherited) .inherited
    let inTime ← Task.wait w (some installLimit)
    if !inTime then
      Task.print ("Deps installation took over " ++ toString installLimit
        ++ " seconds, something is wrong.")

/-! ### Testing -/

/-- Whether the pattern occurs in the text. -/
def occurs (pattern : List Char) : List Char → Bool
  | [] => pattern.isEmpty
  | c :: rest => pattern.isPrefixOf (c :: rest) || occurs pattern rest

/-- Advises the user and ends the task. -/
def giveUp : Task Unit := do
  Task.print advice
  throw (.exit 1)

/-- Ends the task unless the test program can measure coverage. -/
def needCoverage (w : Surroundings) : Task Unit := do
  Task.start w "py.test --version" .nowhere .file
  let _ ← Task.wait w none
  if !occurs "pytest-cov".toList w.testerSays.toList then giveUp

/-- The command that runs the tests. -/
def testCommand : String := "py.test --cov=dicexpr"

/-- Runs the tests in the directory of the project. -/
def test (w : Surroundings) : Task Unit := do
  needCoverage w
  Task.inDirectory w.root (Task.run w testCommand)

/-- Runs commands one after the other. -/
def runAll (w : Surroundings) : List String → Task Unit
  | [] => pure ()
  | command :: rest => do
    Task.run w command
    runAll w rest

/-- Measures coverage, writes the report and opens it. -/
def coverage (w : Surroundings) : Task Unit := do
  needCoverage w
  let good ← Task.check w "coverage --version" .nowhere
  if !good then giveUp
  let dir := Path.add w.temp "dicexprCoverage"
  Task.inDirectory w.root (runAll w
    [testCommand, "coverage html -d " ++ dir, "xdg-open " ++ Path.add dir "index.html"])

/-- The task of the given name; `force` is the option of installing. -/
def perform (w : Surroundings) (force : Datum) : TaskName → Task Unit
  | .clean => clean w
  | .deps => deps w force
  | .test => test w
  | .coverage => coverage w

end Chores
end DiceRoller
