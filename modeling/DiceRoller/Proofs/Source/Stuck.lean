/-
# Where a script is stuck

A die cannot be rolled with a script that is at its end, or that goes on with a
value which is no face of the die. `Script.Stuck` says so and names the fault
that is raised; the script stays where it is.

What the script gave before stands in front of its pending values. All of it is
at least one, so there are no more such values than their sum
(`Source.Gives.length_le_sum`), and it is a stretch of the script
(`Source.Gives.pending_eq`). If every stretch of the script has a sum that
may be written, then so may each of its values and their number; scripts with
other values are the only ones that raise another fault than one of the source
(`Script.Stuck.fault`).

Key definitions: `Script.Stuck`, `Script.Short`, `Fault.OfSource`.
Key theorems: `Source.stuck_of_draw`, `Source.Gives.writable_length`,
`Script.Stuck.fault`.
-/
import DiceRoller.Fault.Kind
import DiceRoller.Proofs.Source.Draws
import DiceRoller.Proofs.Text.Writable
import Mathlib.Algebra.BigOperators.Group.List.Basic
import Mathlib.Algebra.Ring.Int.Defs

namespace DiceRoller

/-- The fault is one that a script raises. -/
def Fault.OfSource (f : Fault) : Prop :=
  f.kind = .sourceExhausted ∨ f.kind = .scriptedValueOutOfRange

namespace Script

/-- No die with `m` sides can be rolled with the script, and this is the fault
that says so. -/
inductive Stuck (m : Int) : Script → Fault → Prop
  | exhausted {passed : List Int} : Stuck m ⟨passed, []⟩ (.scriptExhausted passed.length)
  | outOfRange {passed rest : List Int} {v : Int} : ¬ (1 ≤ v ∧ v ≤ m) →
      Stuck m ⟨passed, v :: rest⟩ (Numeral.raise (.scriptedValueOutOfRange v 1 m))

/-- Every stretch of what is to come has a sum that may be written. -/
def Short (p : Script) : Prop := ∀ vs, vs <:+: p.pending → Numeral.writable vs.sum = true

/-- Dice with sides that may be written get stuck with a fault of the source, if
the next value may be written too. -/
theorem Stuck.fault {m : Int} {p : Script} {f : Fault} (hs : p.Stuck m f)
    (hm : Numeral.writable m = true) : f.OfSource ∨
      f = .numeralTooLongToWrite ∧ ∃ v, [v] <:+: p.pending ∧ Numeral.writable v = false := by
  cases hs with
  | exhausted => exact .inl (.inl rfl)
  | @outOfRange passed rest v _ =>
    have hone : Numeral.writable 1 = true := writable_of_lt (n := 1) (by decide)
    have hnumbers : (Fault.scriptedValueOutOfRange v 1 m).numbers.all Numeral.writable =
        Numeral.writable v := by
      simp [Fault.numbers, hone, hm]
    rw [Numeral.raise, hnumbers]
    cases hv : Numeral.writable v with
    | true => exact .inl (.inr rfl)
    | false => exact .inr ⟨rfl, v, ⟨[], rest, rfl⟩, hv⟩

end Script

namespace Source

variable {m : Int} {p q : Script} {s : Source} {f : Fault} {vs ws : List Int}

theorem stuck_of_draw (h : draw 1 m (.scripted p) = .error f s) :
    p.Stuck m f ∧ s = .scripted p := by
  obtain ⟨passed, pending⟩ := p
  cases pending with
  | nil =>
    cases h
    exact ⟨.exhausted, rfl⟩
  | cons v rest =>
    by_cases hv : 1 ≤ v ∧ v ≤ m
    · simp only [draw, Script.draw, if_pos hv] at h
      cases h
    · simp only [draw, Script.draw, if_neg hv, EStateM.Result.error.injEq] at h
      obtain ⟨rfl, rfl⟩ := h
      exact ⟨.outOfRange hv, rfl⟩

namespace Gives

theorem exists_script (h : Gives m (.scripted p) vs s) :
    ∃ q, s = .scripted q ∧ p.pending = vs ++ q.pending := by
  obtain ⟨rest, hpending, -, rfl⟩ := gives_scripted_iff.1 h
  exact ⟨_, rfl, hpending⟩

theorem pending_eq (h : Gives m (.scripted p) vs (.scripted q)) :
    p.pending = vs ++ q.pending := by
  obtain ⟨q', hq, hpending⟩ := h.exists_script
  cases hq
  exact hpending

theorem length_le_sum (h : Gives m s vs s') : (vs.length : Int) ≤ vs.sum := by
  induction h with
  | nil => exact Int.le_refl _
  | cons hd _ ih =>
    have hone := (draw_mem_range hd).1
    rw [List.length_cons, List.sum_cons]
    omega

theorem writable_length (h : Gives m (.scripted p) vs s) (hp : p.Short) :
    Numeral.writable vs.length = true := by
  obtain ⟨q, -, hpending⟩ := h.exists_script
  have hsum : Numeral.writable vs.sum = true := hp vs ⟨[], q.pending, hpending.symm⟩
  exact writable_of_le (Int.natCast_nonneg _) h.length_le_sum hsum

end Gives

end Source

/-- What is left of a script has the sums that may be written, too. -/
theorem Script.Short.of_gives {m : Int} {p q : Script} {vs : List Int} (hp : p.Short)
    (h : Source.Gives m (.scripted p) vs (.scripted q)) : q.Short := by
  intro ws hws
  refine hp ws (hws.trans ?_)
  rw [h.pending_eq]
  exact (List.suffix_append vs q.pending).isInfix

end DiceRoller
