/-
# Advantage and disadvantage in an expression

The dice terms of an expression do no worse with advantage than with disadvantage,
whatever is dropped from them afterwards (`Options.rollTerm_noWorse`), and both leave
the same source to the terms that follow. So they are compared term by term
(`evalTerms_noWorse`).

Key theorem: `evalTerms_noWorse`.
-/
import DiceRoller.Proofs.Expression.Alike
import DiceRoller.Proofs.Expression.Occurs
import DiceRoller.Proofs.Hand.Advantage

namespace DiceRoller

/-- **Advantage never does worse than disadvantage on the same dice.** With both the
expression is evaluated to the same fault, or to hands of the same samples that are
worth as much at least with advantage and are the same for each term that is not picked
from; the same source is left. With advantage, disadvantage for the same dice has no
effect. -/
theorem evalTerms_noWorse (low high : Option DropCount) (p : MultiRoll) (e : String) (T : Trace) :
    EndsAlike (List.Forall₂ (Part.Beside p.NoWorse)) SameSource
        (evalTerms (.withAdvantage low high p) e T) (evalTerms (.withDisadvantage low high p) e T) ∧
      ∀ q : MultiRoll, q.sides = p.sides →
        evalTerms { Options.withAdvantage low high p with disadvantage := some q } e T =
          evalTerms (.withAdvantage low high p) e T := by
  refine ⟨evalTerms_alike (Options.rollTerm_noWorse low high p) e T T rfl, fun q hsides => ?_⟩
  rw [evalTerms_congr fun u _ => Options.rollTerm_of_both hsides]

/-- The die is rolled twice; a third time for the disadvantage is not needed. -/
theorem evalTerms_noWorse_d20 :
    let p : MultiRoll := ⟨20, 2, by decide⟩
    let q : MultiRoll := ⟨20, 3, by decide⟩
    let T : Trace := ⟨.scripted (.ofList [7, 15]), []⟩
    let parts (r : Int) : List Part :=
      [.dice ⟨1, 1, 20, 0, by decide, by decide, by decide⟩
        { rolls := [r], samples := [7, 15], tags := [(5, "adv/dis")] }, .constant ⟨-1, 2⟩]
    ∃ T₁ T₂, evalTerms (.withAdvantage none none p) "d20-2" T = .ok (parts 15) T₁ ∧
      evalTerms (.withDisadvantage none none p) "d20-2" T = .ok (parts 7) T₂ ∧
      List.Forall₂ (Part.Beside p.NoWorse) (parts 15) (parts 7) ∧ SameSource T₁ T₂ ∧
      q.sides = p.sides ∧
      evalTerms { Options.withAdvantage none none p with disadvantage := some q } "d20-2" T =
        .ok (parts 15) T₁ := by
  intro p q T parts
  let d20 : DiceTerm := ⟨1, 1, 20, 0, by decide, by decide, by decide⟩
  have hread : readTerms "d20-2" = .ok [.dice d20, .constant ⟨-1, 2⟩] := by decide +kernel
  have hok {o : Options} {r : Int} (hroll : o.rollTerm d20 T.source =
      .ok { rolls := [r], samples := [7, 15], tags := [(5, "adv/dis")] }
        (.scripted ⟨[15, 7], []⟩)) : evalTerms o "d20-2" T = .ok (parts r) _ :=
    evalTerms_eq_ok_iff.2 ⟨_, hread, cons_eq_ok_iff.2
      ⟨_, _, _, rollPart_dice.2 ⟨_, _, hroll, rfl, rfl⟩, rfl, rfl⟩⟩
  have hadvantage := hok (o := .withAdvantage none none p) (r := 15) <| by
    rw [Options.rollTerm, Options.modifiersFor_eq_cons]
    rfl
  have hdisadvantage := hok (o := .withDisadvantage none none p) (r := 7) <| by
    rw [Options.rollTerm, Options.modifiersFor_eq_cons]
    rfl
  obtain ⟨halike, hboth⟩ := evalTerms_noWorse none none p "d20-2" T
  rw [hadvantage, hdisadvantage] at halike
  cases halike with
  | ok hparts hs =>
    exact ⟨_, _, hadvantage, hdisadvantage, hparts, hs, rfl, (hboth q rfl).trans hadvantage⟩

end DiceRoller
