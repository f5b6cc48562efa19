/-
# Where the values drawn for a term go

Every value that is drawn for a term ends up in exactly one place: among the
rolls, among the rolls that were rerolled, or among the samples that a pick did
not take. `Hand.Balanced` says so of a hand and the values drawn for it so far,
and counts them: a reroll and an added die draw one value each, and the first
roll draws a value for each die, or for each sample.

The first modifier balances the hand, whatever came before
(`Modifier.Step.balanced_first`); every other modifier keeps it balanced with
what it draws (`Modifier.Step.balanced`), and so do all of them together
(`Options.balanced_of_steps`).

Key definitions: `Options.Leaves`, `Hand.Balanced`.
Key theorems: `Modifier.Step.balanced`, `Options.balanced_of_steps`.
-/
import DiceRoller.Proofs.Hand.Step

namespace DiceRoller

/-- The samples that are left when a pick has taken its own: all of them but one
copy of that. Where no pick is made there are none. -/
def Options.Leaves (o : Options) (t : DiceTerm) (samples left : List Int) : Prop :=
  match o.pickOf t with
  | none => left = []
  | some highest => ∃ v, Modifier.best? highest samples = some v ∧ left = samples.erase v

/-- What is on the table after `drawn` has been drawn for the term. -/
structure Hand.Balanced (o : Options) (t : DiceTerm) (drawn : List Int) (h : Hand) : Prop where
  /-- As many values are drawn as there were dice or samples, rerolls and dice
  added. -/
  length_drawn : drawn.length =
    (if (o.pickOf t).isSome then h.samples.length else t.number) + h.rerolled + h.exploded
  length_rolls : h.rolls.length = t.number + h.exploded
  /-- The values are the rolls, those rerolled and the samples not picked. -/
  parts : ∃ again left, drawn.Perm (h.rolls ++ again ++ left) ∧ again.length = h.rerolled ∧
    (∀ v ∈ again, ∃ r, o.reroll = some r ∧ v ≤ r.lte) ∧ o.Leaves t h.samples left

/-! ### The single kinds of modifiers -/

theorem Rerolls.length_eq {lte : Datum} {rolls vs rolls' : List Int}
    (hr : Rerolls lte rolls vs rolls') : rolls'.length = rolls.length := by
  induction hr with
  | nil => rfl
  | stay _ _ ih => rw [List.length_cons, List.length_cons, ih]
  | again _ _ ih => rw [List.length_cons, List.length_cons, ih]

/-- Each value drawn for a reroll stands for a low roll. -/
theorem Rerolls.perm {n : Int} {rolls vs rolls' : List Int}
    (hr : Rerolls (.number n) rolls vs rolls') : ∃ again, (rolls ++ vs).Perm (rolls' ++ again) ∧
      again.length = vs.length ∧ ∀ v ∈ again, v ≤ n := by
  induction hr with
  | nil => exact ⟨[], .nil, rfl, nofun⟩
  | stay _ _ ih =>
    obtain ⟨again, hp, hl, hle⟩ := ih
    exact ⟨again, hp.cons _, hl, hle⟩
  | @again r v rs vs rs' hlow _ ih =>
    obtain ⟨again, hp, hl, hle⟩ := ih
    have hrn : r ≤ n := by
      rw [Datum.atMost_number] at hlow
      exact of_decide_eq_true (Except.ok.inj hlow)
    refine ⟨r :: again, ?_, by rw [List.length_cons, List.length_cons, hl], ?_⟩
    · calc ((r :: rs) ++ v :: vs).Perm (r :: v :: (rs ++ vs)) := List.perm_middle.cons r
        _ = r :: v :: (rs ++ vs) := rfl
        List.Perm _ (r :: v :: (rs' ++ again)) := (hp.cons v).cons r
        List.Perm _ ((v :: rs') ++ r :: again) := by
          exact (List.Perm.swap v r _).trans (List.perm_middle.symm.cons v)
    · intro w hw
      rcases List.mem_cons.1 hw with rfl | hw
      · exact hrn
      · exact hle w hw

/-- Explosions put the values that they draw among the rolls. -/
theorem Explodes.perm {e : Explode} {sides : Int} {rolls vs rolls' : List Int}
    (he : Explodes e sides rolls vs rolls') : (rolls ++ vs).Perm rolls' := by
  induction he with
  | nil => exact .nil
  | @cons v ws rs vs rs' _ _ ih =>
    have hmid : (rs ++ (ws ++ vs)).Perm (ws ++ (rs ++ vs)) := by
      rw [← List.append_assoc, ← List.append_assoc]
      exact List.perm_append_comm.append_right vs
    exact (hmid.trans (ih.append_left ws)).cons v

theorem Modifier.best?_mem {highest : Bool} {samples : List Int} {v : Int}
    (hv : best? highest samples = some v) : v ∈ samples := by
  cases highest with
  | true => exact List.max?_mem hv
  | false => exact List.min?_mem hv

theorem perm_rolls_append (rolls vs again left : List Int) :
    (rolls ++ again ++ left ++ vs).Perm (rolls ++ vs ++ (again ++ left)) := by
  rw [List.append_assoc rolls again left, List.append_assoc rolls, List.append_assoc rolls]
  exact List.perm_append_comm.append_left rolls

/-! ### Steps keep the balance -/

namespace Modifier

variable {o : Options} {t : DiceTerm} {m : Modifier} {ms : List Modifier} {h h' : Hand}
  {vs drawn : List Int}

/-- The first modifier puts what it draws on an empty table. -/
theorem Step.balanced_first (hs : Step t (o.initialRoll t) {} vs h) : h.Balanced o t vs := by
  rcases o.initialRoll_cases t with ⟨hpick, hm⟩ | ⟨highest, times, hpick, hnum, -, hm⟩
  · rw [hm] at hs
    cases hs with
    | roll hl =>
      refine ⟨?_, hl, [], [], ?_, rfl, nofun, ?_⟩
      · rw [hpick]
        exact hl
      · rw [List.append_nil, List.append_nil]
      · rw [Options.Leaves, hpick]
  · rw [hm] at hs
    cases hs with
    | @pick _ _ n v _ _ _ hl hv =>
      refine ⟨?_, ?_, [], vs.erase v, ?_, rfl, nofun, ?_⟩
      · rw [hpick]
        rfl
      · rw [hnum]
        rfl
      · exact List.perm_cons_erase (best?_mem hv)
      · rw [Options.Leaves, hpick]
        exact ⟨v, hv, rfl⟩

theorem Step.balanced (hs : Step t m h vs h') (hm : o.Follows m) (hb : h.Balanced o t drawn) :
    h'.Balanced o t (drawn ++ vs) := by
  obtain ⟨hdrawn, hrolls, again, left, hp, hagain, hle, hleft⟩ := hb
  have hnext : (drawn ++ vs).Perm (h.rolls ++ vs ++ (again ++ left)) :=
    (hp.append_right vs).trans (perm_rolls_append _ _ _ _)
  cases hs with
  | roll => cases hm
  | pick => cases hm
  | @reroll _ _ _ _ rolls hr hn =>
    obtain ⟨tags, rfl⟩ := hn.eq_tags
    cases hm with
    | @reroll r hor =>
      obtain ⟨again', hp', hl', hle'⟩ := hr.perm
      refine ⟨?_, hr.length_eq.trans hrolls, again' ++ again, left, ?_, ?_, ?_, hleft⟩
      · show _ = (if (o.pickOf t).isSome then h.samples.length else t.number) +
          (h.rerolled + vs.length) + h.exploded
        rw [List.length_append, hdrawn]
        omega
      · calc (drawn ++ vs).Perm (h.rolls ++ vs ++ (again ++ left)) := hnext
          List.Perm _ (rolls ++ again' ++ (again ++ left)) := hp'.append_right _
          _ = rolls ++ (again' ++ again) ++ left := by simp only [List.append_assoc]
      · rw [List.length_append, hl', hagain, Nat.add_comm]
      · intro v hv
        rcases List.mem_append.1 hv with hv | hv
        · exact ⟨r, hor, hle' v hv⟩
        · exact hle v hv
  | @explode _ _ _ _ rolls he hn =>
    obtain ⟨tags, rfl⟩ := hn.eq_tags
    have hp' := he.perm
    refine ⟨?_, ?_, again, left, ?_, hagain, hle, hleft⟩
    · rw [List.length_append, hdrawn, Nat.add_assoc]
    · rw [← hp'.length_eq, List.length_append, hrolls, Nat.add_assoc]
    · calc (drawn ++ vs).Perm (h.rolls ++ vs ++ (again ++ left)) := hnext
        List.Perm _ (rolls ++ (again ++ left)) := hp'.append_right _
        _ = rolls ++ again ++ left := (List.append_assoc _ _ _).symm
  | drop =>
    rw [List.append_nil]
    exact ⟨hdrawn, hrolls, again, left, hp, hagain, hle, hleft⟩
  | dropTagged =>
    rw [List.append_nil]
    exact ⟨hdrawn, hrolls, again, left, hp, hagain, hle, hleft⟩

theorem Steps.balanced (hs : Steps t ms h vs h') (hms : ∀ m ∈ ms, o.Follows m)
    (hb : h.Balanced o t drawn) : h'.Balanced o t (drawn ++ vs) := by
  induction hs generalizing drawn with
  | nil => rwa [List.append_nil]
  | @cons _ _ _ _ _ us ws hm _ ih =>
    rw [← List.append_assoc]
    exact ih (fun m hm => hms m (List.mem_cons_of_mem _ hm))
      (hm.balanced (hms _ List.mem_cons_self) hb)

end Modifier

theorem Options.balanced_of_steps {o : Options} {t : DiceTerm} {h : Hand} {vs : List Int}
    (hs : Modifier.Steps t (o.modifiersFor t) {} vs h) : h.Balanced o t vs := by
  rw [modifiersFor_eq_cons] at hs
  cases hs with
  | cons hfirst hrest =>
    exact hrest.balanced (fun m hm => follows_of_mem hm) hfirst.balanced_first

end DiceRoller
