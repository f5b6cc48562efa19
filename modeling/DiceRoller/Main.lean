/-
# The command

Reads the arguments and the clock, runs the command, and writes what it left
on the screen. A fault that the command does not report ends it with status 1
and its message among the errors.
-/
import DiceRoller.CommandLine.Run
import Std.Time.DateTime.Timestamp

namespace DiceRoller

/-- The time now. -/
def readClock : IO Clock := do
  let nanos := (← Std.Time.Timestamp.now).toNanosecondsSinceUnixEpoch.toInt
  return ⟨nanos / 1000⟩

/-- What the program runs on: its log complains of what it cannot write. -/
def host : CommandLine.Host where
  log := {
    complaint := fun f =>
      "--- Logging error ---\n" ++ f.kind.name ++ ": " ++ f.message ++ "\n" }

/-- Writes what a run has left. -/
def showScreen (s : CommandLine.Screen) : IO Unit := do
  IO.print s.stdout
  IO.eprint s.stderr

end DiceRoller

open DiceRoller in
/-- The command line of the program. -/
def main (argv : List String) : IO UInt32 := do
  match CommandLine.runOn host argv (← readClock) {} with
  | .ok status screen =>
    showScreen screen
    return UInt32.ofNat status
  | .error fault screen =>
    showScreen screen
    IO.eprintln (fault.kind.name ++ ": " ++ fault.message)
    return 1
