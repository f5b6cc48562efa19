/-
# What a hand can be worth

Without explosions a hand has one roll for each die. The drops leave
`Options.keptCount` of them, whatever was rolled, so the hand is worth at least
that many ones and at most that many highest faces (`Options.value_bounds`).

Every whole number between the two can be had (`Options.exists_worth`). If
rolls that are dropped anyway are as low, or as high, as they can be, then the
others are kept, and these can be chosen to have any sum in between.

Key definition: `Options.keptCount`.
Key theorems: `Hand.value_of_rolls`, `Options.value_bounds`,
`Options.exists_worth`.
-/
import DiceRoller.Proofs.Hand.DropLaw
import DiceRoller.Proofs.Hand.Rollable
import Mathlib.Algebra.Order.BigOperators.Group.List

namespace DiceRoller

/-! ### Sums of values in a range -/

/-- Every number between `n` ones and `n` times `m` is the sum of `n` values
that are at most `m`. -/
theorem exists_values_of_sum {m : Nat} (hm : 1 ≤ m) {n : Nat} {x : Int} (hlow : (n : Int) ≤ x)
    (hhigh : x ≤ n * m) :
    ∃ vs : List Int, vs.length = n ∧ (∀ v ∈ vs, 1 ≤ v ∧ v ≤ m) ∧ vs.sum = x := by
  induction n generalizing x with
  | zero => exact ⟨[], rfl, nofun, by rw [List.sum_nil]; omega⟩
  | succ n ih =>
    rw [Int.natCast_succ] at hlow hhigh
    rw [Int.add_mul, Int.one_mul] at hhigh
    have hmul : (n : Int) ≤ n * m := by
      exact_mod_cast Nat.le_mul_of_pos_right n hm
    -- the first value is as high as the other ones allow
    obtain ⟨vs, hl, hvs, hsum⟩ := ih (x := x - min (m : Int) (x - n)) (by omega) (by omega)
    refine ⟨min (m : Int) (x - n) :: vs, by rw [List.length_cons, hl], fun v hv => ?_, ?_⟩
    · rcases List.mem_cons.1 hv with rfl | hv
      · omega
      · exact hvs v hv
    · rw [List.sum_cons, hsum]
      omega

theorem sum_bounds {vs : List Int} {low high : Int} (hvs : ∀ v ∈ vs, low ≤ v ∧ v ≤ high) :
    vs.length * low ≤ vs.sum ∧ vs.sum ≤ vs.length * high := by
  have hlow := List.card_nsmul_le_sum vs low fun v hv => (hvs v hv).1
  have hhigh := List.sum_le_card_nsmul vs high fun v hv => (hvs v hv).2
  rw [nsmul_eq_mul] at hlow hhigh
  exact ⟨hlow, hhigh⟩

/-! ### The rolls that are kept -/

namespace Hand

variable {h : Hand} {low high m : Nat} {middle : List Int}

theorem sorted_between (hmiddle : ∀ v ∈ middle, 1 ≤ v ∧ v ≤ (m : Int)) (hm : 1 ≤ m) :
    sorted false (List.replicate low 1 ++ (middle ++ List.replicate high (m : Int))) =
      List.replicate low 1 ++ (sorted false middle ++ List.replicate high (m : Int)) := by
  have hp := sorted_perm false middle
  have hsorted : ∀ v ∈ sorted false middle, 1 ≤ v ∧ v ≤ (m : Int) := fun v hv =>
    hmiddle v (hp.mem_iff.1 hv)
  refine (eq_sorted ((hp.append_right _).append_left _) ?_).symm
  have hends : (sorted false middle ++ List.replicate high (m : Int)).Pairwise (· ≤ ·) := by
    refine List.pairwise_append.2 ⟨sorted_pairwise middle, ?_, fun v hv w hw => ?_⟩
    · exact List.pairwise_replicate.2 (.inr (Int.le_refl _))
    · rw [(List.mem_replicate.1 hw).2]
      exact (hsorted v hv).2
  refine List.pairwise_append.2 ⟨?_, hends, fun v hv w hw => ?_⟩
  · exact List.pairwise_replicate.2 (.inr (Int.le_refl _))
  · rw [(List.mem_replicate.1 hv).2]
    rcases List.mem_append.1 hw with hw | hw
    · exact (hsorted w hw).1
    · rw [(List.mem_replicate.1 hw).2]
      omega

theorem value_eq_sum_sorted (h : Hand) : h.value = (sorted false h.kept).sum := by
  rw [value_eq_sum, (sorted_perm false h.kept).sum_eq]

/-- If the low rolls and the high rolls are those that are dropped, then the
hand is worth the others. -/
theorem value_of_rolls (ht : h.Trimmed low high)
    (hrolls : h.rolls = List.replicate low 1 ++ (middle ++ List.replicate high (m : Int)))
    (hmiddle : ∀ v ∈ middle, 1 ≤ v ∧ v ≤ (m : Int)) (hm : 1 ≤ m) : h.value = middle.sum := by
  have hlength : h.rolls.length - high = low + (sorted false middle).length := by
    rw [hrolls, length_sorted]
    simp only [List.length_append, List.length_replicate]
    omega
  have hkept : sorted false h.kept = sorted false middle := by
    rw [ht.sorted_kept, hlength, hrolls, sorted_between hmiddle hm]
    have htake : (List.replicate low 1 ++ (sorted false middle ++ List.replicate high (m : Int))).take
        ((List.replicate low (1 : Int)).length + (sorted false middle).length) =
          List.replicate low 1 ++
            (sorted false middle ++ List.replicate high (m : Int)).take
              (sorted false middle).length := List.take_length_add_append _
    have hdrop : (List.replicate low 1 ++ sorted false middle).drop
        (List.replicate low (1 : Int)).length = sorted false middle := List.drop_left
    rw [List.length_replicate] at htake hdrop
    rw [htake, List.take_left, hdrop]
  rw [value_eq_sum_sorted, hkept, (sorted_perm false middle).sum_eq]

end Hand

/-! ### Hands without explosions -/

namespace Modifier

variable {t : DiceTerm} {m : Modifier} {ms : List Modifier} {h h' : Hand} {vs : List Int}

theorem Step.exploded_eq (hs : Step t m h vs h') (hm : ∀ e, m ≠ .explode e) :
    h'.exploded = h.exploded := by
  cases hs with
  | roll => rfl
  | pick => rfl
  | reroll _ hn =>
    obtain ⟨tags, rfl⟩ := hn.eq_tags
    rfl
  | explode => exact absurd rfl (hm _)
  | drop => rfl
  | dropTagged => rfl

theorem Steps.exploded_eq (hs : Steps t ms h vs h') (hms : ∀ m ∈ ms, ∀ e, m ≠ .explode e) :
    h'.exploded = h.exploded := by
  induction hs with
  | nil => rfl
  | cons hm _ ih =>
    have hfirst := hm.exploded_eq (hms _ List.mem_cons_self)
    exact (ih fun m hm => hms m (List.mem_cons_of_mem _ hm)).trans hfirst

end Modifier

namespace Options

open Modifier

variable {o : Options} {t : DiceTerm} {h : Hand} {vs : List Int}

/-- How many rolls are kept, if there are no explosions: none if more are to be
dropped than there are dice. -/
def keptCount (o : Options) (t : DiceTerm) : Nat := t.number - (o.lowCount t + o.highCount)

theorem ne_explode_of_mem (hexplode : o.explode = none) {m : Modifier}
    (hm : m ∈ o.modifiersFor t) (e : Option Explode) : m ≠ .explode e := by
  rintro rfl
  rw [modifiersFor_eq_cons] at hm
  rcases List.mem_cons.1 hm with hm | hm
  · rcases o.initialRoll_cases t with ⟨-, hi⟩ | ⟨_, _, -, -, -, hi⟩ <;> rw [hi] at hm <;> cases hm
  · cases follows_of_mem hm with
    | explode he =>
      rw [hexplode] at he
      cases he

theorem length_rolls_of_steps (hexplode : o.explode = none)
    (hs : Steps t (o.modifiersFor t) {} vs h) : h.rolls.length = t.number := by
  have hadded : h.exploded = 0 := hs.exploded_eq fun m hm e => ne_explode_of_mem hexplode hm e
  rw [(balanced_of_steps hs).length_rolls, hadded, Nat.add_zero]

theorem length_kept_of_steps (hexplode : o.explode = none)
    (hs : Steps t (o.modifiersFor t) {} vs h) : h.kept.length = o.keptCount t := by
  rw [(trimmed_of_steps hs).length_kept, length_rolls_of_steps hexplode hs, keptCount]
  omega

theorem mem_of_mem_rolls (hs : Steps t (o.modifiersFor t) {} vs h) {r : Int} (hr : r ∈ h.rolls) :
    r ∈ vs := by
  obtain ⟨again, left, hp, -⟩ := (balanced_of_steps hs).parts
  exact hp.mem_iff.2 (List.mem_append_left _ (List.mem_append_left _ hr))

theorem value_le_sum (hs : Steps t (o.modifiersFor t) {} vs h) (hvs : ∀ v ∈ vs, 0 ≤ v) :
    0 ≤ h.value ∧ h.value ≤ vs.sum := by
  obtain ⟨again, left, hp, -⟩ := (balanced_of_steps hs).parts
  have hkept : h.kept.Sublist (h.rolls ++ again ++ left) := by
    rw [List.append_assoc]
    exact h.kept_sublist.trans (List.sublist_append_left _ _)
  have hall : ∀ v ∈ h.rolls ++ again ++ left, 0 ≤ v := fun v hv => hvs v (hp.mem_iff.2 hv)
  rw [h.value_eq_sum, hp.sum_eq]
  exact ⟨List.sum_nonneg fun v hv => hall v (hkept.subset hv), hkept.sum_le_sum hall⟩

theorem value_bounds (hexplode : o.explode = none) (hs : Steps t (o.modifiersFor t) {} vs h)
    (hvs : ∀ v ∈ vs, 1 ≤ v ∧ v ≤ (t.sides : Int)) :
    (o.keptCount t : Int) ≤ h.value ∧ h.value ≤ o.keptCount t * t.sides := by
  have hkept : ∀ v ∈ h.kept, 1 ≤ v ∧ v ≤ (t.sides : Int) := fun v hv =>
    hvs v (mem_of_mem_rolls hs (h.kept_sublist.subset hv))
  have hbounds := sum_bounds hkept
  rwa [length_kept_of_steps hexplode hs, Int.mul_one, ← h.value_eq_sum] at hbounds

theorem exists_steps (hexplode : o.explode = none) (hw : o.TagsWritable t)
    (hn : Numeral.writable t.number = true) {rolls : List Int} (hl : rolls.length = t.number)
    (hrolls : ∀ r ∈ rolls, 1 ≤ r) :
    ∃ vs h, Steps t (o.modifiersFor t) {} vs h ∧ h.rolls = rolls ∧ ∀ v ∈ vs, v ∈ rolls := by
  have hdrops : ∀ h₁ : Hand, h₁.rolls = rolls → h₁.dropped = [] →
      ∃ h, Steps t (o.droppingModifiers t) h₁ [] h ∧ h.rolls = rolls := by
    intro h₁ h₁rolls hfresh
    obtain ⟨n, h, hs⟩ := canPlay_drops hw h₁
    obtain ⟨hnil, hkeeps, -⟩ := hs.trimmed (fun m hm => mem_droppingModifiers hm)
      (Hand.Trimmed.fresh hfresh)
    rw [hnil] at hs
    exact ⟨h, hs, hkeeps.trans h₁rolls⟩
  obtain ⟨us, h₀, hfirst, h₀rolls, hrr, -, hus⟩ := exists_initialStep o hl
  have hfresh : h₀.dropped = [] := hfirst.dropped_eq fun kind num =>
    rollingModifiers_ne_drop List.mem_cons_self kind num
  rw [modifiersFor_eq, rollingModifiers, hexplode]
  cases hr : o.reroll with
  | none =>
    obtain ⟨h, hs, hkeeps⟩ := hdrops h₀ h₀rolls hfresh
    refine ⟨us ++ [], h, .cons hfirst hs, hkeeps, fun v hv => hus v ?_⟩
    rwa [List.append_nil] at hv
  | some r =>
    have hlength : h₀.rolls.length = t.number := by rw [h₀rolls, hl]
    have hlow : ∀ v ∈ h₀.rolls, v ≤ r.lte →
        Numeral.writable r.lte = true ∧ Numeral.writable h₀.rolls.length = true := by
      intro v hv hle
      have hone := hrolls v (h₀rolls ▸ hv)
      rw [hlength]
      exact ⟨hw.reroll r hr (Int.le_trans hone hle), hn⟩
    obtain ⟨ws, h₁, hagain, h₁rolls, -, hws⟩ := exists_rerollStep (t := t) hrr hlow
    have hfresh₁ : h₁.dropped = [] := (hagain.dropped_eq fun _ _ => Modifier.noConfusion).trans hfresh
    obtain ⟨h, hs, hkeeps⟩ := hdrops h₁ (h₁rolls.trans h₀rolls) hfresh₁
    refine ⟨us ++ (ws ++ []), h, .cons hfirst (.cons hagain hs), hkeeps, fun v hv => ?_⟩
    rw [List.append_nil] at hv
    rcases List.mem_append.1 hv with hv | hv
    · exact hus v hv
    · exact h₀rolls ▸ hws v hv

theorem exists_worth (hexplode : o.explode = none) (hw : o.TagsWritable t)
    (hn : Numeral.writable t.number = true) {x : Int} (hlow : (o.keptCount t : Int) ≤ x)
    (hhigh : x ≤ o.keptCount t * t.sides) :
    ∃ vs h, Steps t (o.modifiersFor t) {} vs h ∧ (∀ v ∈ vs, 1 ≤ v ∧ v ≤ (t.sides : Int)) ∧
      h.value = x := by
  have hsides := t.two_le_sides
  by_cases hzero : o.keptCount t = 0
  · -- nothing is kept, whatever the dice show
    obtain ⟨vs, h, hs, -, hvs⟩ := exists_steps hexplode hw hn
      (List.length_replicate (n := t.number) (a := (1 : Int)))
      fun r hr => Int.le_of_eq (List.mem_replicate.1 hr).2.symm
    have hrange : ∀ v ∈ vs, 1 ≤ v ∧ v ≤ (t.sides : Int) := by
      intro v hv
      rw [(List.mem_replicate.1 (hvs v hv)).2]
      omega
    have hvalue := value_bounds hexplode hs hrange
    refine ⟨vs, h, hs, hrange, ?_⟩
    rw [hzero] at hvalue hlow hhigh
    omega
  · obtain ⟨middle, hl, hmiddle, rfl⟩ := exists_values_of_sum (by omega) hlow hhigh
    have hlength : (List.replicate (o.lowCount t) 1 ++
        (middle ++ List.replicate o.highCount (t.sides : Int))).length = t.number := by
      simp only [List.length_append, List.length_replicate, hl]
      unfold keptCount at hzero ⊢
      omega
    have hrange : ∀ v ∈ List.replicate (o.lowCount t) 1 ++
        (middle ++ List.replicate o.highCount (t.sides : Int)), 1 ≤ v ∧ v ≤ (t.sides : Int) := by
      intro v hv
      rcases List.mem_append.1 hv with hv | hv
      · rw [(List.mem_replicate.1 hv).2]
        omega
      · rcases List.mem_append.1 hv with hv | hv
        · exact hmiddle v hv
        · rw [(List.mem_replicate.1 hv).2]
          omega
    obtain ⟨vs, h, hs, hrolls, hvs⟩ := exists_steps hexplode hw hn hlength
      fun r hr => (hrange r hr).1
    exact ⟨vs, h, hs, fun v hv => hrange v (hvs v hv),
      Hand.value_of_rolls (trimmed_of_steps hs) hrolls hmiddle (by omega)⟩

end Options
end DiceRoller
