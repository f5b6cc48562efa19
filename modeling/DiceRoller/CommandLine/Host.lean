/-
# What a run of the command finds

Before it rolls anything the command sets up its log. That may fail, for one if
the file that says how is missing. An entry whose text may not be written does
not get into the log: the log complains of it among the errors, and the run goes
on.

The command makes a generator from its seed. Which one that is, is up to the
host as well.

Key definitions: `LogSetup`, `LogSetup.check`, `Host`, `Host.sourceOf`.
-/
import DiceRoller.CommandLine.Selection
import DiceRoller.Seed

namespace DiceRoller
namespace CommandLine

/-- How the log is set up. -/
structure LogSetup where
  /-- The fault by which there is no log, if it cannot be set up. -/
  problem : Option Fault := none
  /-- What the log puts among the errors for an entry with a fault. -/
  complaint : Fault → String := fun _ => ""

/-- Fails if the log cannot be set up. -/
def LogSetup.check (l : LogSetup) : Except Fault Unit :=
  match l.problem with
  | none => .ok ()
  | some f => .error f

/-- What a run of the command finds. -/
structure Host where
  log : LogSetup := {}
  /-- The generator that is made from a reduced seed. -/
  generator : Nat → Generator := Generator.ofSeed

namespace Host

/-- The source of a seed that is a number. -/
def source (host : Host) (seed : Int) : Source := Seed.sourceBy host.generator seed

/-- The source of a seed. -/
def sourceOf (host : Host) (seed : Given Int) : Except Fault Source :=
  Seed.sourceOfBy host.generator (seed.datum id)

end Host
end CommandLine
end DiceRoller
