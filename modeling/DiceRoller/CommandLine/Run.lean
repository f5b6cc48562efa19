/-
# Running the command

The command reads its arguments, rolls the expression and prints the total and
the parts. It ends with status 0, also after printing help, and with status 1
after an error that it reports. Faults outside the tree of the library, such
as a number too long to be written, are not its to report and pass through.

Without a seed the command takes one from the clock and prints it first, so
that the run can be repeated. A result is entered into the log before it is
printed.

Key definitions: `Screen`, `Session`, `Session.enter`, `printOutcome`, `report`,
`rollArguments`, `runOn`, `run`.
-/
import DiceRoller.CommandLine.Help
import DiceRoller.CommandLine.Host
import DiceRoller.Expression.Evaluation
import DiceRoller.Report
import DiceRoller.Settings

namespace DiceRoller
namespace CommandLine

/-- What a run has written so far. -/
structure Screen where
  stdout : String := ""
  stderr : String := ""
  log : List LogEntry := []
  deriving DecidableEq, Repr

/-- A step of a run, which may end in a fault that is not reported. -/
abbrev Session (α : Type) := EStateM Fault Screen α

namespace Session

/-- Prints a line. -/
def print (line : String) : Session Unit := fun s =>
  .ok () { s with stdout := s.stdout ++ line ++ "\n" }

/-- Prints a line of errors. -/
def printError (line : String) : Session Unit := fun s =>
  .ok () { s with stderr := s.stderr ++ line ++ "\n" }

/-- Leaves an entry in the log. If it may not be written, the log complains. -/
def enter (setup : LogSetup) : Except Fault LogEntry → Session Unit
  | .ok entry => fun s => .ok () { s with log := s.log ++ [entry] }
  | .error f => fun s => .ok () { s with stderr := s.stderr ++ setup.complaint f }

/-- Fails with the fault, or goes on with the value. -/
def ofExcept {α : Type} : Except Fault α → Session α
  | .ok a => pure a
  | .error f => throw f

/-- A step that leaves entries in the log. -/
def ofLogged {α : Type} (x : Logged α) : Session α := fun s =>
  match x [] with
  | .ok a log => .ok a { s with log := s.log ++ log }
  | .error f log => .error f { s with log := s.log ++ log }

/-- An evaluation from the source. -/
def ofEvaluation {α : Type} (x : Evaluation α) (source : Source) : Session α := fun s =>
  match x { source } with
  | .ok a trace => .ok a { s with log := s.log ++ trace.log }
  | .error f trace => .error f { s with log := s.log ++ trace.log }

/-- Runs a step; a fault is handed on to what follows it. -/
def attempt {α : Type} (x : Session α) : Session (Except Fault α) := fun s =>
  match x s with
  | .ok a s => .ok (.ok a) s
  | .error f s => .ok (.error f) s

end Session

/-- The seed of the command; one from the clock is printed. -/
def chooseSeed (flag : Option (Given Int)) (clock : Clock) : Session (Given Int) :=
  match flag with
  | some g => pure g
  | none => do
    let seed := Seed.generate clock
    Session.print ("seed=" ++ toString seed)
    return .value seed

/-- Evaluates an expression with the seed. -/
def rollWith (host : Host) (spec : String) (seed : Given Int) (o : Options) :
    Session Outcome := do
  let source ← Session.ofExcept (host.sourceOf seed)
  Session.ofEvaluation (evaluate o spec) source

/-- The text of a seed. -/
def seedText : Given Int → String
  | .blank => "[]"
  | .value seed => toString seed

/-- The entry for the result of an evaluation. -/
def rolledEntry (spec : String) (seed : Given Int) (total : String) : LogEntry :=
  ⟨.info, .command, "Rolled " ++ spec ++ " with seed " ++ seedText seed ++ " = " ++ total⟩

/-- Enters the result of an evaluation into the log, then prints it. A total that
may not be written stops only the printing. -/
def printOutcome (setup : LogSetup) (spec : String) (seed : Given Int) (out : Outcome) :
    Session Nat := do
  let written := Numeral.publish [out.total] (toString out.total)
  Session.enter setup (written.map (rolledEntry spec seed))
  let total ← Session.ofExcept written
  Session.print ("Roll " ++ spec ++ " = " ++ total)
  Session.print ("Parts: " ++ Settings.separator.intercalate out.parts)
  return 0

/-- Reports a fault of the library: the log gets the full report, the user the
message. -/
def report (setup : LogSetup) (spec : String) (options : Option Options) (f : Fault) :
    Session Nat :=
  if f.kind.isDice then do
    let text ← Session.ofExcept (Report.text f.notice (.text spec) options)
    Session.enter setup
      (.ok ⟨Level.ofNotice (f.level?.getD Notice.usualLevel), .command, text⟩)
    Session.printError ("Error: " ++ f.message)
    return 1
  else throw f

/-- Sets up the log and rolls the expression of the arguments. -/
def rollArguments (host : Host) (args : Arguments) (clock : Clock) : Session Nat := do
  Session.ofExcept host.log.check
  let seed ← chooseSeed args.flags.seed clock
  match ← Session.attempt (Session.ofLogged args.flags.options) with
  | .error f => report host.log args.spec none f
  | .ok o =>
    match ← Session.attempt (rollWith host args.spec seed o) with
    | .error f => report host.log args.spec (some o) f
    | .ok out => printOutcome host.log args.spec seed out

/-- Runs the command on a host: its status, or a fault that it does not report. -/
def runOn (host : Host) (argv : List String) (clock : Clock) : Session Nat :=
  match parse argv with
  | .error .help => do
    Session.print Help.text
    return 0
  | .error (.refused r) => do
    Session.printError ("Error: " ++ r.message ++ ". Use --help for usage tips.")
    return 1
  | .ok args => rollArguments host args clock

/-- Runs the command with the engine as its generator and a silent log. -/
def run (argv : List String) (clock : Clock) : Session Nat := runOn {} argv clock

end CommandLine
end DiceRoller
