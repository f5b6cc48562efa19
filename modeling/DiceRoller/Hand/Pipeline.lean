/-
# The pipeline: the options applied to one dice term

The options call for modifiers on a term: a pick if one applies, advantage
before disadvantage, else a plain roll; then whatever parts are present and do
something. Sorted by weight, they are applied to a fresh hand.

Key definitions: `Options.initialRoll`, `Options.modifiersFor`,
`Options.modifiersForDraft`, `Options.rollTerm`.
Key theorem: `Options.modifiersForDraft_draft`.
-/
import DiceRoller.Hand.Modifier

namespace DiceRoller
namespace Options

/-- The pick that a part calls for on a term. -/
def pick? (part : Option MultiRoll) (highest : Bool) (t : DiceTerm) : Option Modifier :=
  part.bind fun m => if m.applies t then some (.pick (.number m.times) (.truth highest)) else none

/-- The first modifier for a term. -/
def initialRoll (o : Options) (t : DiceTerm) : Modifier :=
  ((pick? o.advantage true t).or (pick? o.disadvantage false t)).getD .roll

/-- A drop, unless it is of nothing. -/
def dropOf (kind : Drop) (count : Nat) : Option Modifier :=
  if count = 0 then none else some (.drop kind (.number count))

/-- The modifiers that the options call for, as they are listed, after a first
one; the drop within the term is given. -/
def listedAfter (o : Options) (first : Modifier) (inTerm : Option Modifier) : List Modifier :=
  first ::
    [o.reroll.map fun r => .reroll (.number r.lte),
     o.explode.map fun e => .explode (some e),
     inTerm,
     o.dropLowest.bind fun d => dropOf .lowest d.count,
     o.dropHighest.bind fun d => dropOf .highest d.count].reduceOption

/-- The modifiers for a term in the order of application. -/
def modifiersFor (o : Options) (t : DiceTerm) : List Modifier :=
  Modifier.sort (o.listedAfter (o.initialRoll t) (dropOf .inTerm t.drop))

/-! ### Terms described by data -/

/-- The pick that a part calls for on the draft of a term. -/
def pickFor? (part : Option MultiRoll) (highest : Bool) (d : Draft) :
    Except Fault (Option Modifier) :=
  match part with
  | none => .ok none
  | some m => do
    return if ← m.appliesTo d then some (.pick (.number m.times) (.truth highest)) else none

/-- The first modifier for the draft of a term. -/
def initialRollFor (o : Options) (d : Draft) : Except Fault Modifier := do
  match ← pickFor? o.advantage true d with
  | some m => return m
  | none => return (← pickFor? o.disadvantage false d).getD .roll

/-- The modifiers for the draft of a term, which must be dice. -/
def modifiersForDraft (o : Options) (d : Draft) : Except Fault (List Modifier) := do
  let first ← o.initialRollFor d
  match d with
  | .dice _ _ _ drop =>
    return Modifier.sort
      (o.listedAfter first (if drop.holds then some (.drop .inTerm drop) else none))
  | d => throw (.misuse (.noPart d.kindName "inline_drop_lowest"))

theorem pickFor?_draft (part : Option MultiRoll) (highest : Bool) (t : DiceTerm) :
    pickFor? part highest t.draft = .ok (pick? part highest t) := by
  cases part with
  | none => rfl
  | some m =>
    simp only [pickFor?, MultiRoll.appliesTo_draft]
    rfl

theorem initialRollFor_draft (o : Options) (t : DiceTerm) :
    o.initialRollFor t.draft = .ok (o.initialRoll t) := by
  simp only [initialRollFor, pickFor?_draft, initialRoll]
  cases pick? o.advantage true t <;> rfl

theorem inTerm_draft (t : DiceTerm) :
    (if (Datum.number t.drop).holds then some (Modifier.drop .inTerm (.number t.drop)) else none) =
      dropOf .inTerm t.drop := by
  by_cases h : t.drop = 0 <;> simp [Datum.holds, dropOf, h]

/-- Dice get the same modifiers as their draft. -/
theorem modifiersForDraft_draft (o : Options) (t : DiceTerm) :
    o.modifiersForDraft t.draft = .ok (o.modifiersFor t) := by
  simp only [modifiersForDraft, initialRollFor_draft, modifiersFor, ← inTerm_draft]
  rfl

/-! ### Rolling -/

/-- Rolls a term: the hand, and the source after it. -/
def rollTerm (o : Options) (t : DiceTerm) : EStateM Fault Source Hand := fun s =>
  match Modifier.applyAll (o.modifiersFor t) ⟨t.draft, {}, s⟩ with
  | .ok () table => .ok table.hand table.source
  | .error f table => .error f table.source

/-- The fields of the pipeline. -/
def pipelineRecord (o : Options) : String := "RollPipeline(options=" ++ o.record ++ ")"

end Options
end DiceRoller
