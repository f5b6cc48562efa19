/-
# From flags to options

The flags are turned into options in a fixed order; the first one whose value
makes no sense is refused. An explosion that can never stop is accepted with a
warning in the log.

Key definitions: `Given.datum`, `Flags.options`.
-/
import DiceRoller.CommandLine.Arguments
import DiceRoller.LogEntry

namespace DiceRoller
namespace CommandLine

/-- A step that may fail and leaves entries in the log. -/
abbrev Logged (α : Type) := EStateM Fault (List LogEntry) α

namespace Logged

/-- Fails with the fault, or goes on with the value. -/
def ofExcept {α : Type} : Except Fault α → Logged α
  | .ok a => pure a
  | .error f => throw f

/-- Leaves an entry. -/
def enter (entry : LogEntry) : Logged Unit := fun log => .ok () (log ++ [entry])

end Logged

/-- The value of a flag as a datum; a flag without a value is an empty list. -/
def Given.datum {α : Type} (toNumber : α → Int) : Given α → Datum
  | blank => .list []
  | value a => .number (toNumber a)

/-- The warning about an explosion that never stops. -/
def unboundedWarning (e : Explode) : LogEntry :=
  ⟨.warning, .arguments,
    "Explode on " ++ e.threshold.text ++ " with no cap will never stop exploding."⟩

namespace Flags

/-- The drop that a flag asks for. -/
def dropOf : Option (Given Nat) → Except Fault (Option DropCount)
  | none => .ok none
  | some g => (DropCount.make (g.datum Int.ofNat)).map some

/-- The reroll that a flag asks for. -/
def rerollOf : Option (Given Int) → Except Fault (Option Reroll)
  | none => .ok none
  | some g => (Reroll.make (g.datum id)).map some

/-- The explosion that a flag asks for. -/
def explodeOf : Option (Given Explode) → Option Explode
  | none => none
  | some .blank => some .usual
  | some (.value e) => some e

/-- The pick that a flag asks for. -/
def pickOf : Option (Given (Int × Int)) → Except Fault (Option MultiRoll)
  | none => .ok none
  | some .blank => .error MultiRoll.sidesMissing
  | some (.value (sides, times)) => (MultiRoll.make (.number sides) (.number times)).map some

/-- The options that the flags ask for. -/
def options (flags : Flags) : Logged Options := do
  let dropLowest ← Logged.ofExcept (dropOf flags.dropLowest)
  let dropHighest ← Logged.ofExcept (dropOf flags.dropHighest)
  let reroll ← Logged.ofExcept (rerollOf flags.reroll)
  let explode := explodeOf flags.explode
  match explode with
  | some e => if e.unbounded then Logged.enter (unboundedWarning e) else pure ()
  | none => pure ()
  let advantage ← Logged.ofExcept (pickOf flags.advantage)
  let disadvantage ← Logged.ofExcept (pickOf flags.disadvantage)
  return { dropLowest, dropHighest, reroll, explode, advantage, disadvantage }

end Flags
end CommandLine
end DiceRoller
