/-
# Advantage and disadvantage on the same dice

Advantage and disadvantage make the same samples and differ in the one they keep:
the highest is at least the lowest (`Modifier.best?_le`). After that only drops come,
and they look at how many rolls are kept, not at what they show. So from the same
source both picks go alike, the drops after them too, and the hands stay the one
above the other: the same samples, one roll each, and the same number of rolls kept
(`Hand.Above`).

A term to which the pick does not apply is rolled alike with both, and one to which
it does apply has no disadvantage where it has advantage.

Key definitions: `Hand.Above`, `MultiRoll.NoWorse`, `Options.withAdvantage`,
`Options.withDisadvantage`.
Key theorems: `Hand.Above.value_le`, `Modifier.pick_alike`, `Modifier.drop_alike`,
`Options.rollTerm_noWorse`, `Options.rollTerm_of_both`.
-/
import DiceRoller.Proofs.Hand.Kept
import DiceRoller.Proofs.Hand.Stuck
import DiceRoller.Proofs.Hand.Unsigned

namespace DiceRoller

/-! ### One hand above the other -/

namespace Hand

/-- Both hands have the same samples and one roll each, of which both or none is
kept; that of the first hand is at least that of the second one. -/
structure Above (h h' : Hand) : Prop where
  samples : h.samples = h'.samples
  rolls : ∃ a b, h.rolls = [a] ∧ h'.rolls = [b] ∧ b ≤ a
  kept : h.kept.length = h'.kept.length

variable {h h' : Hand}

/-- A hand with one roll is worth that, or nothing if it is dropped. -/
theorem value_of_single {r : Int} (hr : h.rolls = [r]) :
    h.value = if h.kept.length = 0 then 0 else r := by
  have hsub := h.kept_sublist
  rw [hr, List.sublist_singleton] at hsub
  rcases hsub with hkept | hkept <;> simp [value, hkept]

theorem Above.value_le (ha : h.Above h') : h'.value ≤ h.value := by
  obtain ⟨a, b, hr, hr', hle⟩ := ha.rolls
  rw [value_of_single hr, value_of_single hr', ha.kept]
  split <;> omega

theorem length_kept_drop (h : Hand) (num : Int) (highest : Bool) :
    (h.drop num highest).kept.length = h.kept.length - num.toNat := by
  have hlength := (kept_drop_perm h num highest).length_eq
  rw [List.length_append, selected, List.length_take, length_sorted] at hlength
  omega

theorem Above.drop (ha : h.Above h') (num : Int) (highest : Bool) :
    (h.drop num highest).Above (h'.drop num highest) where
  samples := ha.samples
  rolls := ha.rolls
  kept := by rw [length_kept_drop, length_kept_drop, ha.kept]

/-- Tags change neither the rolls nor what is dropped. -/
theorem Above.tag (ha : h.Above h') (key : Int) (text : String) :
    (h.tag key text).Above (h'.tag key text) := ⟨ha.samples, ha.rolls, ha.kept⟩

end Hand

/-! ### The picks and the drops -/

namespace Modifier

variable {t : DiceTerm}

theorem best?_le {samples : List Int} {a b : Int} (ha : best? true samples = some a)
    (hb : best? false samples = some b) : b ≤ a := by
  have hmax := (List.max?_eq_some_iff.1 ha).2
  exact hmax b (List.min?_eq_some_iff.1 hb).1

/-- Both picks draw the same samples, or fail alike. -/
theorem pick_alike {times : Nat} (htimes : times ≠ 0) :
    Alike (Table.Facing t t fun h h' => h = {} ∧ h' = {})
      (Modifier.pick (.number times) (.truth true)).apply
      (Modifier.pick (.number times) (.truth false)).apply Eq (Table.Facing t t Hand.Above) := by
  rintro _ _ ⟨⟨rfl, rfl⟩, s⟩
  rw [apply, apply, applyPick, applyPick, timesOf_bind, timesOf_bind]
  cases hdice : Play.dice times ⟨t.draft, {}, s⟩ with
  | error f T =>
    rw [bind_of_error hdice, bind_of_error hdice]
    exact .error rfl
  | ok samples T =>
    obtain ⟨hlength, s', -, rfl⟩ := Play.dice_eq_ok_iff.1 hdice
    have hne : samples ≠ [] := List.ne_nil_of_length_pos (by omega)
    obtain ⟨a, ha⟩ := exists_best? (Datum.truth true).holds hne
    obtain ⟨b, hb⟩ := exists_best? (Datum.truth false).holds hne
    have habove : Hand.Above { rolls := [a], samples } { rolls := [b], samples } := by
      refine ⟨rfl, ⟨a, b, rfl, rfl, best?_le ha hb⟩, ?_⟩
      rw [Hand.kept_of_dropped_nil rfl, Hand.kept_of_dropped_nil rfl]
      rfl
    rw [bind_of_ok hdice, bind_of_ok hdice, Play.update_bind, Play.update_bind, ha, hb]
    exact .ok rfl (.mk (habove.tag 5 "adv/dis") s')

theorem drop_alike (kind : Drop) (num : Datum) :
    Alike (Table.Facing t t Hand.Above) (Modifier.drop kind num).apply
      (Modifier.drop kind num).apply Eq (Table.Facing t t Hand.Above) := by
  rw [apply, applyDrop_eq]
  refine (Play.ofExcept_alike _).bind fun count _ hcount => ?_
  subst hcount
  have hdrop : Alike (Table.Facing t t Hand.Above) (Play.update (·.drop count kind.isHigh))
      (Play.update (·.drop count kind.isHigh)) Eq (Table.Facing t t Hand.Above) :=
    Play.update_alike fun _ _ ha => ha.drop count kind.isHigh
  refine hdrop.bind fun _ _ _ => ?_
  cases kind.tag? with
  | none => exact .pure rfl
  | some tag =>
    refine (Play.ofExcept_alike _).bind fun text _ htext => ?_
    subst htext
    exact Play.update_alike fun _ _ ha => ha.tag tag.1 text

theorem drops_alike {ms : List Modifier} (hms : ∀ m ∈ ms, ∃ kind num, m = .drop kind num) :
    Alike (Table.Facing t t Hand.Above) (applyAll ms) (applyAll ms) Eq
      (Table.Facing t t Hand.Above) := by
  induction ms with
  | nil => exact .pure rfl
  | cons m ms ih =>
    obtain ⟨⟨kind, num, rfl⟩, htail⟩ := List.forall_mem_cons.1 hms
    exact (drop_alike kind num).bind fun _ _ _ => ih htail

end Modifier

/-! ### Rolls -/

/-- With the first hand the dice have done no worse than with the second one: on the
same samples it is worth as much at least, and dice that are not picked from have the
same hand. -/
structure MultiRoll.NoWorse (p : MultiRoll) (t : DiceTerm) (h h' : Hand) : Prop where
  samples : h.samples = h'.samples
  value_le : h'.value ≤ h.value
  eq_of_not_applies : p.applies t = false → h = h'

namespace Options

variable {low high : Option DropCount} {p q : MultiRoll} {t : DiceTerm}

/-- Drops, and the highest of several rolls of some dice. -/
def withAdvantage (low high : Option DropCount) (p : MultiRoll) : Options :=
  { dropLowest := low, dropHighest := high, advantage := some p }

/-- Drops, and the lowest of several rolls of some dice. -/
def withDisadvantage (low high : Option DropCount) (p : MultiRoll) : Options :=
  { dropLowest := low, dropHighest := high, disadvantage := some p }

theorem initialRoll_withAdvantage (low high : Option DropCount) (p : MultiRoll) (t : DiceTerm) :
    (withAdvantage low high p).initialRoll t =
      if p.applies t then .pick (.number p.times) (.truth true) else .roll := by
  by_cases hp : p.applies t <;> simp [initialRoll, withAdvantage, pick?, hp]

theorem initialRoll_withDisadvantage (low high : Option DropCount) (p : MultiRoll) (t : DiceTerm) :
    (withDisadvantage low high p).initialRoll t =
      if p.applies t then .pick (.number p.times) (.truth false) else .roll := by
  by_cases hp : p.applies t <;> simp [initialRoll, withDisadvantage, pick?, hp]

/-- After the first roll, both come to the same drops. -/
theorem modifiersFor_advantage (low high : Option DropCount) (p : MultiRoll) (t : DiceTerm) :
    (withAdvantage low high p).modifiersFor t = (withAdvantage low high p).initialRoll t ::
        (withAdvantage low high p).droppingModifiers t ∧
      (withDisadvantage low high p).modifiersFor t = (withDisadvantage low high p).initialRoll t ::
        (withAdvantage low high p).droppingModifiers t :=
  ⟨modifiersFor_eq_cons _ t, modifiersFor_eq_cons _ t⟩

/-- Advantage is never worse than disadvantage on the same dice: both rolls fail alike,
or leave the same source. -/
theorem rollTerm_noWorse (low high : Option DropCount) (p : MultiRoll) (t : DiceTerm) (s : Source) :
    EndsAlike (p.NoWorse t) Eq ((withAdvantage low high p).rollTerm t s)
      ((withDisadvantage low high p).rollTerm t s) := by
  obtain ⟨hadvantage, hdisadvantage⟩ := modifiersFor_advantage low high p t
  rw [initialRoll_withAdvantage] at hadvantage
  rw [initialRoll_withDisadvantage] at hdisadvantage
  by_cases hp : p.applies t
  · rw [if_pos hp] at hadvantage hdisadvantage
    have htimes : p.times ≠ 0 := by
      have := p.one_lt_times
      omega
    have hdrops : ∀ m ∈ (withAdvantage low high p).droppingModifiers t,
        ∃ kind num, m = .drop kind num := fun m hm => by
      obtain ⟨kind, count, rfl⟩ := mem_droppingModifiers hm
      exact ⟨kind, _, rfl⟩
    have hhands : EndsAlike Hand.Above Eq ((withAdvantage low high p).rollTerm t s)
        ((withDisadvantage low high p).rollTerm t s) := by
      apply rollTerm_alike
      rw [hadvantage, hdisadvantage]
      exact (Modifier.pick_alike htimes).bind (fun _ _ _ => Modifier.drops_alike hdrops) _ _
        (.mk ⟨rfl, rfl⟩ s)
    exact hhands.mono fun _ _ ha => ⟨ha.samples, ha.value_le, fun hnot => by simp [hp] at hnot⟩
  · rw [if_neg hp] at hadvantage hdisadvantage
    rw [rollTerm, rollTerm, hadvantage, hdisadvantage]
    refine (EndsAlike.refl _).mono fun h h' heq => ?_
    obtain rfl := heq
    exact ⟨rfl, Int.le_refl _, fun _ => rfl⟩

theorem rollTerm_of_both (hsides : q.sides = p.sides) :
    ({ withAdvantage low high p with disadvantage := some q } : Options).rollTerm t =
      (withAdvantage low high p).rollTerm t := by
  have happlies : q.applies t = p.applies t := by
    rw [MultiRoll.applies, MultiRoll.applies, hsides]
  have hfirst : ({ withAdvantage low high p with disadvantage := some q } : Options).initialRoll t =
      (withAdvantage low high p).initialRoll t := by
    by_cases hp : p.applies t <;> simp [initialRoll, withAdvantage, pick?, happlies, hp]
  funext s
  rw [rollTerm, rollTerm, modifiersFor_eq_cons, modifiersFor_eq_cons, hfirst]
  rfl

end Options
end DiceRoller
