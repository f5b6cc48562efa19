/-
# What the drops leave of the rolls

The three drops of a roll work one after the other, each on what the ones
before it left. Together they do one thing: the rolls in order lose the `low`
lowest and then the `high` highest values, as far as there are any. `DropLaw`
says so for a hand, with what this means for the values dropped and for the
worth of the hand.

The law holds of every hand that has been rolled for a term
(`Options.rollTerm_dropLaw`). It is proved of the steps: those that roll drop
nothing (`Modifier.Steps.dropped_eq`), and each of the others extends
`Hand.Trimmed` by what it takes (`Modifier.Steps.trimmed`).

Key definitions: `Hand.DropLaw`, `Modifier.takes`, `Options.lowCount`,
`Options.highCount`.
Key theorems: `Hand.Trimmed.dropLaw`, `Modifier.Steps.trimmed`,
`Options.rollTerm_dropLaw`.
-/
import DiceRoller.Proofs.Hand.Kept
import DiceRoller.Proofs.Hand.Step
import Mathlib.Algebra.BigOperators.Group.List.Basic
import Mathlib.Algebra.GroupWithZero.Nat
import Mathlib.Algebra.Ring.Int.Defs

namespace DiceRoller

/-! ### Sums of hands and tallies -/

theorem length_expand (counts : List (Int × Nat)) :
    (expand counts).length = (counts.map Prod.snd).sum := by
  induction counts with
  | nil => rfl
  | cons p ps ih =>
    rw [expand_cons, List.length_append, List.length_replicate, ih, List.map_cons, List.sum_cons]

theorem sum_expand (counts : List (Int × Nat)) :
    (expand counts).sum = (counts.map fun p => p.1 * (p.2 : Int)).sum := by
  induction counts with
  | nil => rfl
  | cons p ps ih =>
    rw [expand_cons, List.sum_append, List.sum_replicate, ih, List.map_cons, List.sum_cons,
      nsmul_eq_mul, mul_comm]

theorem sum_counts_tally (values : List Int) :
    ((tally values).map Prod.snd).sum = values.length := by
  rw [← length_expand, (expand_tally values).length_eq]

/-- The values of a tally, as often as they are counted, sum to the sum of the
values. -/
theorem sum_tally (values : List Int) :
    ((tally values).map fun p => p.1 * (p.2 : Int)).sum = values.sum := by
  rw [← sum_expand, (expand_tally values).sum_eq]

namespace Hand

theorem value_eq_sum (h : Hand) : h.value = h.kept.sum := rfl

theorem value_eq_of_count_le {h : Hand} (hle : ∀ v, h.dropped.count v ≤ h.rolls.count v) :
    h.value = h.rolls.sum - ((tally h.dropped).map fun p => p.1 * (p.2 : Int)).sum := by
  have hsum := (kept_append_dropped hle).sum_eq
  rw [List.sum_append] at hsum
  rw [value_eq_sum, sum_tally]
  omega

/-! ### The law -/

/-- What drops of `low` of the lowest and `high` of the highest values leave of
the rolls of a hand. -/
structure DropLaw (low high : Nat) (h : Hand) : Prop where
  /-- In order, the values kept are the middle of the rolls. -/
  sorted_kept : sorted false h.kept =
    ((sorted false h.rolls).take
      (max (min low h.rolls.length) (h.rolls.length - high))).drop (min low h.rolls.length)
  /-- The values kept stand as they were rolled. -/
  kept_sublist : h.kept.Sublist h.rolls
  /-- As many values are dropped as were asked for, if there are so many. -/
  sum_counts : ((tally h.dropped).map Prod.snd).sum = min (low + high) h.rolls.length
  /-- No value is dropped more often than it was rolled. -/
  count_le : ∀ p ∈ tally h.dropped, p.2 ≤ h.rolls.count p.1
  /-- The hand is worth its rolls less the values dropped. -/
  value_eq : h.value = h.rolls.sum - ((tally h.dropped).map fun p => p.1 * (p.2 : Int)).sum

theorem Trimmed.dropLaw {low high : Nat} {h : Hand} (ht : Trimmed low high h) :
    DropLaw low high h where
  sorted_kept := by
    rw [ht.sorted_kept]
    rcases Nat.le_total low (h.rolls.length - high) with hle | hle
    · have hlow : min low h.rolls.length = low := Nat.min_eq_left (by omega)
      rw [hlow, Nat.max_eq_right hle]
    · -- the drops of the lowest meet those of the highest
      rw [List.drop_eq_nil_of_le, List.drop_eq_nil_of_le] <;>
        rw [List.length_take, length_sorted] <;> omega
  kept_sublist := h.kept_sublist
  sum_counts := by rw [sum_counts_tally, ht.length_dropped]
  count_le p hp := by
    rw [count_of_mem_tally hp]
    exact ht.count_dropped_le p.1
  value_eq := value_eq_of_count_le ht.count_dropped_le

end Hand

/-! ### Steps that roll and steps that drop -/

namespace Modifier

/-- How many of the highest, or of the lowest, values a modifier drops. -/
def takes (highest : Bool) : Modifier → Nat
  | .drop kind (.number n) => if kind.isHigh = highest then n.toNat else 0
  | _ => 0

variable {t : DiceTerm} {m : Modifier} {ms : List Modifier} {h h' : Hand} {vs : List Int}
  {low high : Nat}

theorem Step.dropped_eq (hs : Step t m h vs h') (hm : ∀ kind num, m ≠ .drop kind num) :
    h'.dropped = h.dropped := by
  cases hs with
  | roll => rfl
  | pick => rfl
  | reroll _ hn =>
    obtain ⟨tags, rfl⟩ := hn.eq_tags
    rfl
  | explode _ hn =>
    obtain ⟨tags, rfl⟩ := hn.eq_tags
    rfl
  | drop => exact absurd rfl (hm _ _)
  | dropTagged => exact absurd rfl (hm _ _)

theorem Steps.dropped_eq (hs : Steps t ms h vs h')
    (hms : ∀ m ∈ ms, ∀ kind num, m ≠ .drop kind num) : h'.dropped = h.dropped := by
  induction hs with
  | nil => rfl
  | cons hm _ ih =>
    have h1 := hm.dropped_eq (hms _ List.mem_cons_self)
    exact (ih fun m hm => hms m (List.mem_cons_of_mem _ hm)).trans h1

theorem Step.trimmed {kind : Drop} {n : Int} (hs : Step t (.drop kind (.number n)) h vs h')
    (ht : h.Trimmed low high) : vs = [] ∧ h'.rolls = h.rolls ∧
      h'.Trimmed (low + takes false (.drop kind (.number n)))
        (high + takes true (.drop kind (.number n))) := by
  have hone : (h.drop n kind.isHigh).Trimmed (low + takes false (.drop kind (.number n)))
      (high + takes true (.drop kind (.number n))) := by
    cases hk : kind.isHigh with
    | false => simpa [takes, hk] using ht.drop_low n
    | true => simpa [takes, hk] using ht.drop_high n
  cases hs with
  | drop hn =>
    cases hn
    exact ⟨rfl, rfl, hone⟩
  | dropTagged hn =>
    cases hn
    -- a tag changes neither the rolls nor the values dropped
    exact ⟨rfl, rfl, ⟨hone.sorted_kept, hone.count_dropped_le⟩⟩

theorem Steps.trimmed (hs : Steps t ms h vs h')
    (hms : ∀ m ∈ ms, ∃ kind, ∃ n : Nat, m = .drop kind (.number n)) (ht : h.Trimmed low high) :
    vs = [] ∧ h'.rolls = h.rolls ∧
      h'.Trimmed (low + (ms.map (takes false)).sum) (high + (ms.map (takes true)).sum) := by
  induction hs generalizing low high with
  | nil => exact ⟨rfl, rfl, ht⟩
  | cons hm _ ih =>
    obtain ⟨kind, n, rfl⟩ := hms _ List.mem_cons_self
    obtain ⟨rfl, hr, ht⟩ := hm.trimmed ht
    obtain ⟨rfl, hr', ht'⟩ := ih (fun m hm => hms m (List.mem_cons_of_mem _ hm)) ht
    rw [List.map_cons, List.sum_cons, List.map_cons, List.sum_cons, ← Nat.add_assoc,
      ← Nat.add_assoc]
    exact ⟨rfl, hr'.trans hr, ht'⟩

end Modifier

/-! ### The drops of a term -/

namespace Options

variable {o : Options} {t : DiceTerm} {h : Hand} {s s' : Source}

/-- How many of the lowest values are dropped, by the term and by the options. -/
def lowCount (o : Options) (t : DiceTerm) : Nat := t.drop + o.dropLowest.elim 0 (·.count)

/-- How many of the highest values are dropped. -/
def highCount (o : Options) : Nat := o.dropHighest.elim 0 (·.count)

theorem rollingModifiers_ne_drop {m : Modifier} (hm : m ∈ o.rollingModifiers t) (kind : Drop)
    (num : Datum) : m ≠ .drop kind num := by
  rintro rfl
  rcases List.mem_cons.1 hm with h | h
  · rcases o.initialRoll_cases t with ⟨-, hi⟩ | ⟨_, _, -, -, -, hi⟩ <;> rw [hi] at h <;> cases h
  · rcases reroll_or_explode_of_mem h with ⟨r, -, hr⟩ | ⟨e, -, he⟩
    · cases hr
    · cases he

/-- A drop of nothing, which is not listed, takes nothing. -/
theorem sum_takes_cons (highest : Bool) (kind : Drop) (count : Nat) (ms : List (Option Modifier)) :
    ((dropOf kind count :: ms).reduceOption.map (Modifier.takes highest)).sum =
      (if kind.isHigh = highest then count else 0) +
        (ms.reduceOption.map (Modifier.takes highest)).sum := by
  unfold dropOf
  split
  · next h0 => simp [h0]
  · simp [Modifier.takes]

theorem sum_takes (o : Options) (t : DiceTerm) :
    ((o.droppingModifiers t).map (Modifier.takes false)).sum = o.lowCount t ∧
      ((o.droppingModifiers t).map (Modifier.takes true)).sum = o.highCount := by
  rw [droppingModifiers, bind_dropOf, bind_dropOf]
  constructor <;> rw [sum_takes_cons, sum_takes_cons, sum_takes_cons] <;>
    simp [Drop.isHigh, lowCount, highCount]

/-- The steps of a whole roll trim the hand by what the term and the options
drop. -/
theorem trimmed_of_steps {vs : List Int} (hs : Modifier.Steps t (o.modifiersFor t) {} vs h) :
    h.Trimmed (o.lowCount t) o.highCount := by
  rw [modifiersFor_eq] at hs
  obtain ⟨vs₁, vs₂, h₀, -, hroll, hdrop⟩ := hs.split
  have hfresh : h₀.dropped = [] :=
    hroll.dropped_eq fun m hm kind num => rollingModifiers_ne_drop hm kind num
  obtain ⟨-, -, ht⟩ := hdrop.trimmed (fun m hm => mem_droppingModifiers hm)
    (Hand.Trimmed.fresh hfresh)
  rwa [(sum_takes o t).1, (sum_takes o t).2, Nat.zero_add, Nat.zero_add] at ht

/-- A hand that has been rolled has the rolls that the first modifiers, up to
the explosion, left on the table; the drops that come after them draw nothing
and obey the law. -/
theorem rollTerm_dropLaw (hok : o.rollTerm t s = .ok h s') :
    (∃ h₀ : Hand, Modifier.applyAll (o.rollingModifiers t) ⟨t.draft, {}, s⟩ =
        .ok () ⟨t.draft, h₀, s'⟩ ∧ h₀.rolls = h.rolls ∧ h₀.dropped = []) ∧
      h.DropLaw (o.lowCount t) o.highCount := by
  have hall := rollTerm_eq_ok_iff.1 hok
  rw [modifiersFor_eq, Modifier.applyAll_append] at hall
  obtain ⟨_, _, hroll, hdrop⟩ := bind_eq_ok_iff.1 hall
  obtain ⟨vs, s₁, h₀, hsteps, -, rfl⟩ := Modifier.applyAll_of_ok hroll
  obtain ⟨ws, s₂, h₂, hsteps', hg, hT⟩ := Modifier.applyAll_of_ok hdrop
  obtain ⟨rfl, rfl⟩ : h = h₂ ∧ s' = s₂ := by
    cases hT
    exact ⟨rfl, rfl⟩
  have hfresh : h₀.dropped = [] :=
    hsteps.dropped_eq fun m hm kind num => rollingModifiers_ne_drop hm kind num
  obtain ⟨rfl, hrolls, htrim⟩ := hsteps'.trimmed (fun m hm => mem_droppingModifiers hm)
    (Hand.Trimmed.fresh hfresh)
  cases hg
  rw [(sum_takes o t).1, (sum_takes o t).2, Nat.zero_add, Nat.zero_add] at htrim
  exact ⟨⟨h₀, hroll, hrolls.symm, hfresh⟩, htrim.dropLaw⟩

/-- The third die rerolled, all but one of the rolls dropped. -/
theorem rollTerm_dropLaw_five :
    let o : Options := ⟨some ⟨1⟩, some ⟨2⟩, some ⟨1⟩, none, none, none⟩
    let t : DiceTerm := ⟨1, 5, 6, 1, by decide, by decide, by decide⟩
    ∃ h : Hand, o.rollTerm t (.scripted (.ofList [3, 6, 1, 6, 3, 2])) =
        .ok h (.scripted ⟨[2, 3, 6, 1, 6, 3], []⟩) ∧
      h.rolls = [3, 6, 2, 6, 3] ∧ h.DropLaw 2 2 := by
  intro o t
  obtain ⟨h, hsteps, hrolls⟩ : ∃ h, Modifier.Steps t (o.modifiersFor t) {} [3, 6, 1, 6, 3, 2] h ∧
      h.rolls = [3, 6, 2, 6, 3] := by
    rw [modifiersFor_eq]
    exact ⟨_, .cons (.roll rfl)
      (.cons (.reroll (.stay rfl (.stay rfl (.again rfl (.stay rfl (.stay rfl .nil)))))
        (.tagged (by decide) (by decide +kernel)))
      (.cons (.drop rfl rfl) (.cons (.dropTagged rfl rfl (by decide +kernel))
        (.cons (.dropTagged rfl rfl (by decide +kernel)) .nil)))), rfl⟩
  have hok := (rollTerm_consumes hsteps (by decide)).full [] []
  exact ⟨h, hok, hrolls, (rollTerm_dropLaw hok).2⟩

end Options
end DiceRoller
