/-
# Tasks: what upkeep does to the world

A task prints, asks and starts programs. It does so in surroundings that say
where it runs, what files there are and which programs are missing, and it
keeps a journal of all it did. It may end early: with an exit status, without
an answer to a prompt, without a program, with a command that cannot be split
into words, or with a value that does not fit.

Key definitions: `Surroundings`, `Call`, `Journal`, `Stop`, `Task`,
`Task.ask`, `Task.start`, `Task.run`, `Task.check`, `Task.inDirectory`.
-/
import DiceRoller.Fault
import DiceRoller.Text.Blank
import DiceRoller.Text.Lower
import DiceRoller.Text.Words
import DiceRoller.Upkeep.Folder

namespace DiceRoller

/-- Where a task runs and what it meets there. -/
structure Surroundings where
  /-- The directory of the project. -/
  root : String
  /-- The directory for temporary files. -/
  temp : String
  /-- What is in the directory that the task starts in. -/
  folder : Folder := .empty
  /-- The commands whose program is missing. -/
  missing : List String := []
  /-- Whether waiting with a limit takes too long. -/
  slow : Bool := false
  /-- Whether a checked program ends badly. -/
  badExit : Bool := false
  /-- What the test program says of its version and its plugins. -/
  testerSays : String := ""
  /-- Whether every prompt is answered with yes. -/
  assumeYes : Bool := false
  deriving Repr

/-- Where the output of a program goes. -/
inductive Sink where
  | inherited
  | nowhere
  | file
  deriving DecidableEq, Repr

/-- What a task does with programs. -/
inductive Call where
  /-- Starts a program. -/
  | start (words : List String) (cwd : String) (stdout stderr : Sink)
  /-- Waits for the program started last, at most so many seconds. -/
  | wait (limit : Option Nat)
  /-- Runs a program to its end. -/
  | run (words : List String) (cwd : String)
  /-- Runs a program to its end, which must be good. -/
  | check (words : List String) (cwd : String) (stderr : Sink)
  deriving DecidableEq, Repr

/-- What a task has done so far. -/
structure Journal where
  cwd : String
  stdout : String := ""
  prompts : List String := []
  calls : List Call := []
  /-- The answers that have not been given yet. -/
  answers : List String := []
  deriving DecidableEq, Repr

/-- Why a task ends early. -/
inductive Stop where
  | exit (status : Nat)
  | noAnswer
  | noProgram (name : String)
  | badCommand (p : Words.Problem)
  /-- What was given beforehand does not fit. -/
  | misuse (m : Misuse)
  deriving DecidableEq, Repr

/-- The text of the fault. -/
def Stop.message : Stop → String
  | exit status => toString status
  | noAnswer => "EOF when reading a line"
  | noProgram name => "No such program: '" ++ name ++ "'"
  | badCommand p => p.message
  | misuse m => m.message

/-- A step of a task, which may end it and leaves the journal then too. -/
abbrev Task (α : Type) := EStateM Stop Journal α

namespace Task

/-- Prints a line. -/
def print (line : String) : Task Unit := fun j =>
  .ok () { j with stdout := j.stdout ++ line ++ "\n" }

/-- Asks for an answer, unless yes is assumed. -/
def ask (w : Surroundings) (prompt : String) : Task String := fun j =>
  if w.assumeYes then .ok "yes" j
  else
    let j := { j with prompts := j.prompts ++ [prompt] }
    match j.answers with
    | [] => .error .noAnswer j
    | answer :: rest => .ok answer { j with answers := rest }

/-- Whether an answer agrees: it begins with a y, blanks and case aside. -/
def agrees (answer : String) : Bool :=
  (Lower.text (Blank.trim answer.toList)).head? == some 'y'

/-- The words of a command. -/
def words (command : String) : Task (List String) :=
  match Words.split command with
  | .ok ws => pure ws
  | .error p => throw (.badCommand p)

/-- The current directory. -/
def cwd : Task String := fun j => .ok j.cwd j

/-- Notes a call. -/
def note (call : Call) : Task Unit := fun j => .ok () { j with calls := j.calls ++ [call] }

/-- Fails if the program of the words is missing. -/
def require (w : Surroundings) (ws : List String) : Task Unit :=
  if w.missing.contains (" ".intercalate ws) then throw (.noProgram ((ws.head?).getD ""))
  else pure ()

/-- Starts a program. -/
def start (w : Surroundings) (command : String) (stdout stderr : Sink) : Task Unit := do
  let ws ← words command
  let dir ← cwd
  note (.start ws dir stdout stderr)
  require w ws

/-- Waits for the program started last: whether it ended in time. -/
def wait (w : Surroundings) (limit : Option Nat) : Task Bool := do
  note (.wait limit)
  return !(limit.isSome && w.slow)

/-- Runs a program to its end. -/
def run (w : Surroundings) (command : String) : Task Unit := do
  let ws ← words command
  let dir ← cwd
  note (.run ws dir)
  require w ws

/-- Runs a program to its end: whether the end was good. -/
def check (w : Surroundings) (command : String) (stderr : Sink) : Task Bool := do
  let ws ← words command
  let dir ← cwd
  note (.check ws dir stderr)
  require w ws
  return !w.badExit

/-- Runs a step in another directory and comes back, also when it fails. -/
def inDirectory {α : Type} (dir : String) (x : Task α) : Task α := fun j =>
  match x { j with cwd := dir } with
  | .ok a j' => .ok a { j' with cwd := j.cwd }
  | .error e j' => .error e { j' with cwd := j.cwd }

end Task
end DiceRoller
