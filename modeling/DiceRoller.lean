import DiceRoller.CommandLine.Request
import DiceRoller.Main
import DiceRoller.Proofs.Expression.Accounting
import DiceRoller.Proofs.Hand.DropLaw
import DiceRoller.Proofs.Term.Spelt
import DiceRoller.Proofs.Text.Lowered
import DiceRoller.Term.Draft
import DiceRoller.Upkeep.Chores
import DiceRoller.Proofs.Term.Form
import DiceRoller.Proofs.Expression.Grammar
import DiceRoller.Proofs.Hand.Rollable
import DiceRoller.Proofs.Expression.Acceptance
import DiceRoller.Proofs.Source.Replay
import DiceRoller.Proofs.Expression.Replay
import DiceRoller.Proofs.Expression.Joined
import DiceRoller.Proofs.Hand.Worth
import DiceRoller.Proofs.Expression.Range
import DiceRoller.Proofs.Hand.Stuck
import DiceRoller.Proofs.Expression.FirstFault
import DiceRoller.Proofs.Expression.Faults
import DiceRoller.Proofs.Hand.Unambiguous
import DiceRoller.Proofs.CommandLine.Agreement
import DiceRoller.Proofs.CommandLine.Changes
import DiceRoller.Proofs.CommandLine.Replay
import DiceRoller.Proofs.Source.Period
import DiceRoller.Proofs.Source.Live
import DiceRoller.Proofs.Hand.Seeded
import DiceRoller.Proofs.Expression.Seeded
import DiceRoller.Proofs.CommandLine.Asked
import DiceRoller.Proofs.CommandLine.Status
import DiceRoller.Proofs.Expression.Canonical
import DiceRoller.Proofs.Expression.Told
import DiceRoller.Proofs.Expression.Caseless
import DiceRoller.Proofs.CommandLine.Warned
import DiceRoller.Proofs.Text.Caseless
import DiceRoller.Proofs.Hand.Endless
import DiceRoller.Proofs.Hand.Chains
import DiceRoller.Proofs.Source.Alike
import DiceRoller.Proofs.Hand.Unsigned
import DiceRoller.Proofs.Expression.Alike
import DiceRoller.Proofs.Expression.Opposite
import DiceRoller.Proofs.Hand.Advantage
import DiceRoller.Proofs.Expression.Advantage
import DiceRoller.Proofs.Hand.Regrouped
import DiceRoller.Proofs.Hand.Rerolled
import DiceRoller.Proofs.Hand.Sorted
import DiceRoller.Proofs.Hand.Display
import DiceRoller.Proofs.Term.Verdict
import DiceRoller.Proofs.Expression.Walk
import DiceRoller.Proofs.Source.Handed
import DiceRoller.Proofs.Expression.Served
import DiceRoller.Proofs.Text.Words
import DiceRoller.Proofs.Upkeep.Clean
import DiceRoller.Proofs.Settings
import DiceRoller.Proofs.Text.Path
import DiceRoller.Proofs.Text.Record
import DiceRoller.Proofs.Report
