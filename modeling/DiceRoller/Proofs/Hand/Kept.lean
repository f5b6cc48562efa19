/-
# What drops leave of a hand

The rolls kept are the rolls less the values dropped, counted with their
occurrences (`Hand.count_keep`), in the order of rolling
(`Hand.keep_sublist`). So it does not matter which of several equal rolls a
drop marks: a drop of the lowest takes the front of the kept values in order,
a drop of the highest takes the end of them (`Hand.sorted_kept_drop_low`,
`Hand.sorted_kept_drop_high`).

`Hand.Trimmed low high h` says what is left when `low` of the lowest and
`high` of the highest values have been asked for, in whatever order: of the
rolls in order, the part between the first `low` and the last `high`. Each
drop adds to one of the two numbers (`Hand.Trimmed.drop_low`,
`Hand.Trimmed.drop_high`), also one that asks for more than is left.

Key definition: `Hand.Trimmed`.
Key theorems: `Hand.count_keep`, `Hand.kept_drop_perm`,
`Hand.kept_append_dropped`, `Hand.Trimmed.drop_low`, `Hand.Trimmed.drop_high`,
`Hand.Trimmed.length_dropped`.
-/
import DiceRoller.Hand
import Mathlib.Data.Int.Order.Basic
import Mathlib.Data.List.Sort

namespace DiceRoller
namespace Hand

/-! ### Rolls in order -/

theorem sorted_perm (highest : Bool) (values : List Int) : (sorted highest values).Perm values := by
  cases highest with
  | false => exact List.mergeSort_perm values _
  | true => exact List.mergeSort_perm values _

theorem length_sorted (highest : Bool) (values : List Int) :
    (sorted highest values).length = values.length :=
  (sorted_perm highest values).length_eq

theorem sorted_pairwise (values : List Int) : (sorted false values).Pairwise (· ≤ ·) :=
  List.pairwise_mergeSort' (· ≤ ·) values

theorem sorted_true_pairwise (values : List Int) :
    (sorted true values).Pairwise (fun a b => b ≤ a) :=
  List.pairwise_mergeSort' (· ≥ ·) values

/-- Values have one order only. -/
theorem eq_sorted {values l : List Int} (hp : l.Perm values) (hs : l.Pairwise (· ≤ ·)) :
    l = sorted false values :=
  (hp.trans (sorted_perm false values).symm).eq_of_pairwise' hs (sorted_pairwise values)

theorem sorted_congr {l l' : List Int} (h : l.Perm l') : sorted false l = sorted false l' :=
  eq_sorted ((sorted_perm false l).trans h) (sorted_pairwise l)

/-- From the highest down is from the lowest up, read backwards. -/
theorem sorted_true (values : List Int) : sorted true values = (sorted false values).reverse := by
  rw [← eq_sorted (l := (sorted true values).reverse), List.reverse_reverse]
  · exact (List.reverse_perm _).trans (sorted_perm true values)
  · exact List.pairwise_reverse.2 (sorted_true_pairwise values)

/-! ### Rolls kept -/

/-- A value is kept as often as it was rolled and not dropped. -/
theorem count_keep (rolls left : List Int) (v : Int) :
    (keep rolls left).count v = rolls.count v - left.count v := by
  induction rolls generalizing left with
  | nil => simp [keep]
  | cons r rs ih =>
    unfold keep
    by_cases hr : r ∈ left
    · have hpos : 0 < left.count r := List.count_pos_iff.2 hr
      rw [if_pos (by simpa using hr), ih, List.count_erase, List.count_cons]
      by_cases e : r = v
      · subst e
        simp
        omega
      · simp [e]
    · have hzero : left.count r = 0 := List.count_eq_zero.2 hr
      rw [if_neg (by simpa using hr), List.count_cons, List.count_cons, ih]
      by_cases e : r = v
      · subst e
        simp [hzero]
      · simp [e]

theorem keep_sublist (rolls left : List Int) : (keep rolls left).Sublist rolls := by
  induction rolls generalizing left with
  | nil => exact .slnil
  | cons r rs ih =>
    unfold keep
    split
    · exact .cons _ (ih _)
    · exact .cons_cons _ (ih _)

theorem keep_nil (rolls : List Int) : keep rolls [] = rolls := by
  induction rolls with
  | nil => rfl
  | cons r rs ih => rw [keep, if_neg (by simp), ih]

theorem count_kept (h : Hand) (v : Int) :
    h.kept.count v = h.rolls.count v - h.dropped.count v := by
  rw [kept_eq, count_keep]

theorem kept_of_dropped_nil {h : Hand} (hd : h.dropped = []) : h.kept = h.rolls := by
  rw [kept_eq, hd, keep_nil]

theorem value_of_dropped_nil {h : Hand} (hd : h.dropped = []) :
    h.value = h.rolls.foldr (· + ·) 0 := by
  rw [value, kept_of_dropped_nil hd]

theorem kept_sublist (h : Hand) : h.kept.Sublist h.rolls := by
  rw [kept_eq]
  exact keep_sublist _ _

/-! ### One drop -/

@[simp] theorem drop_rolls (h : Hand) (num : Int) (highest : Bool) :
    (h.drop num highest).rolls = h.rolls := rfl

@[simp] theorem drop_dropped (h : Hand) (num : Int) (highest : Bool) :
    (h.drop num highest).dropped = h.dropped ++ h.selected num highest := rfl

theorem count_selected_le (h : Hand) (num : Int) (highest : Bool) (v : Int) :
    (h.selected num highest).count v ≤ h.kept.count v := by
  rw [← (sorted_perm highest h.kept).count_eq v]
  exact (List.take_sublist _ _).count_le v

theorem kept_drop_perm (h : Hand) (num : Int) (highest : Bool) :
    (h.selected num highest ++ (h.drop num highest).kept).Perm h.kept := by
  rw [List.perm_iff_count]
  intro v
  have hle := count_selected_le h num highest v
  rw [count_kept] at hle
  rw [List.count_append, count_kept, count_kept, drop_rolls, drop_dropped, List.count_append]
  omega

theorem sorted_kept_drop_low (h : Hand) (num : Int) :
    sorted false (h.drop num false).kept = (sorted false h.kept).drop num.toNat := by
  have hp : (h.selected num false ++ (h.drop num false).kept).Perm
      (h.selected num false ++ (sorted false h.kept).drop num.toNat) := by
    rw [selected, List.take_append_drop]
    exact (kept_drop_perm h num false).trans (sorted_perm false h.kept).symm
  rw [sorted_congr ((List.perm_append_left_iff _).1 hp), ← eq_sorted (List.Perm.refl _)]
  exact (sorted_pairwise h.kept).sublist (List.drop_sublist _ _)

theorem sorted_kept_drop_high (h : Hand) (num : Int) :
    sorted false (h.drop num true).kept =
      (sorted false h.kept).take (h.kept.length - num.toNat) := by
  have hsel : h.selected num true =
      ((sorted false h.kept).drop (h.kept.length - num.toNat)).reverse := by
    rw [selected, sorted_true, List.take_reverse, length_sorted]
  have hp : (h.selected num true ++ (h.drop num true).kept).Perm
      (h.selected num true ++ (sorted false h.kept).take (h.kept.length - num.toNat)) := by
    refine ((kept_drop_perm h num true).trans (sorted_perm false h.kept).symm).trans ?_
    rw [hsel]
    refine .trans ?_ (List.perm_append_comm.trans
      ((List.reverse_perm _).symm.append_right _))
    rw [List.take_append_drop]
  rw [sorted_congr ((List.perm_append_left_iff _).1 hp), ← eq_sorted (List.Perm.refl _)]
  exact (sorted_pairwise h.kept).sublist (List.take_sublist _ _)

/-! ### Rolls that cover what is dropped -/

theorem count_drop_le {h : Hand} (hle : ∀ v, h.dropped.count v ≤ h.rolls.count v) (num : Int)
    (highest : Bool) (v : Int) :
    (h.drop num highest).dropped.count v ≤ (h.drop num highest).rolls.count v := by
  have h1 := hle v
  have h2 := count_selected_le h num highest v
  rw [count_kept] at h2
  rw [drop_dropped, drop_rolls, List.count_append]
  omega

theorem kept_append_dropped {h : Hand} (hle : ∀ v, h.dropped.count v ≤ h.rolls.count v) :
    (h.kept ++ h.dropped).Perm h.rolls := by
  rw [List.perm_iff_count]
  intro v
  have hv := hle v
  rw [List.count_append, count_kept]
  omega

/-! ### Any number of drops -/

/-- The rolls kept are the rolls in order without the first `low` and the last
`high` of them, and no value is dropped more often than it was rolled. -/
structure Trimmed (low high : Nat) (h : Hand) : Prop where
  sorted_kept : sorted false h.kept =
    ((sorted false h.rolls).take (h.rolls.length - high)).drop low
  count_dropped_le : ∀ v, h.dropped.count v ≤ h.rolls.count v

namespace Trimmed

variable {low high : Nat} {h : Hand}

theorem fresh (hd : h.dropped = []) : Trimmed 0 0 h where
  sorted_kept := by
    rw [kept_of_dropped_nil hd, Nat.sub_zero, ← length_sorted false h.rolls, List.take_length,
      List.drop_zero]
  count_dropped_le v := by
    rw [hd]
    exact Nat.zero_le _

theorem length_kept (ht : Trimmed low high h) :
    h.kept.length = h.rolls.length - high - low := by
  rw [← length_sorted false, ht.sorted_kept, List.length_drop, List.length_take, length_sorted,
    Nat.min_eq_left (Nat.sub_le _ _)]

theorem drop_low (ht : Trimmed low high h) (num : Int) :
    Trimmed (low + num.toNat) high (h.drop num false) where
  sorted_kept := by rw [sorted_kept_drop_low, ht.sorted_kept, List.drop_drop, drop_rolls]
  count_dropped_le := count_drop_le ht.count_dropped_le num false

theorem drop_high (ht : Trimmed low high h) (num : Int) :
    Trimmed low (high + num.toNat) (h.drop num true) where
  sorted_kept := by
    rw [sorted_kept_drop_high, ht.length_kept, ht.sorted_kept, drop_rolls, List.take_drop,
      List.take_take]
    by_cases hle : low ≤ h.rolls.length - (high + num.toNat)
    · congr 2
      omega
    · -- both sides have run out of values
      rw [List.drop_eq_nil_of_le, List.drop_eq_nil_of_le] <;> rw [List.length_take] <;> omega
  count_dropped_le := count_drop_le ht.count_dropped_le num true

theorem length_dropped (ht : Trimmed low high h) :
    h.dropped.length = min (low + high) h.rolls.length := by
  have hp := (kept_append_dropped ht.count_dropped_le).length_eq
  rw [List.length_append, ht.length_kept] at hp
  omega

end Trimmed

end Hand

/-! ### Tallies -/

/-- The values of a tally, each as often as it is counted. -/
def expand (counts : List (Int × Nat)) : List Int :=
  counts.flatMap fun p => List.replicate p.2 p.1

theorem expand_cons (p : Int × Nat) (counts : List (Int × Nat)) :
    expand (p :: counts) = List.replicate p.2 p.1 ++ expand counts := rfl

/-- A walk through the values meets every value that has a count, if the counts
are those of the values that are left. -/
theorem count_expand_tallyBy (c : Counts) (vs : List Int)
    (hc : ∀ w, c.count w = 0 ∨ c.count w = vs.count w) (w : Int) :
    (expand (tallyBy c vs)).count w = c.count w := by
  induction vs generalizing c with
  | nil => rcases hc w with h | h <;> simp [tallyBy, expand, h]
  | cons v vs ih =>
    unfold tallyBy
    split
    · next h0 =>
      refine ih c fun u => ?_
      rcases hc u with h | h
      · exact .inl h
      · by_cases e : v = u
        · exact .inl (e ▸ h0)
        · exact .inr (by rw [h, List.count_cons, if_neg (by simpa using e), Nat.add_zero])
    · rw [expand_cons, List.count_append, List.count_replicate, ih]
      · rw [Counts.count_takeAll]
        by_cases e : v = w <;> simp [e]
      · intro u
        rw [Counts.count_takeAll]
        by_cases e : v = u
        · exact .inl (if_pos e)
        · rw [if_neg e]
          refine (hc u).imp id fun h => ?_
          rw [h, List.count_cons, if_neg (by simpa using e), Nat.add_zero]

theorem expand_tally (vs : List Int) : (expand (tally vs)).Perm vs := by
  rw [List.perm_iff_count]
  intro v
  have hc := Counts.count_ofList vs
  rw [tally, count_expand_tallyBy _ _ fun w => .inr (hc w), hc]

theorem count_of_mem_tallyBy {c : Counts} {vs : List Int} {p : Int × Nat}
    (hp : p ∈ tallyBy c vs) : p.2 ≠ 0 ∧ p.2 = c.count p.1 := by
  induction vs generalizing c with
  | nil => cases hp
  | cons v vs ih =>
    unfold tallyBy at hp
    split at hp
    · exact ih hp
    · next h0 =>
      rcases List.mem_cons.1 hp with rfl | hp
      · exact ⟨h0, rfl⟩
      · obtain ⟨h1, h2⟩ := ih hp
        rw [Counts.count_takeAll] at h2
        split at h2
        · exact absurd h2 h1
        · exact ⟨h1, h2⟩

theorem count_of_mem_tally {vs : List Int} {p : Int × Nat} (hp : p ∈ tally vs) :
    p.2 = vs.count p.1 := by
  rw [(count_of_mem_tallyBy hp).2, Counts.count_ofList]

end DiceRoller
