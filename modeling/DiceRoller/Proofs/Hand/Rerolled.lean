/-
# A reroll replaces the low rolls in order

A reroll goes through the rolls once. A roll above the bound stays where it is, a
low one is replaced by the next value drawn, and that value is not looked at again.
So the values drawn are as many as there are low rolls, and the low roll that has
so many low ones before it is replaced by the value that has so many values before
it (`Rerolls.replaced`).

On a script a reroll fails in one of two ways. Where the script is stuck at a low
roll, the low rolls before it are counted, and the rolls and the tags are those from
before. Otherwise it is the tag that fails, because a number in it may not be
written; it is left last, so the rolls have been replaced by then
(`Modifier.not_rolls_kept_of_long_bound`).

Key definitions: `lowBefore`, `Replaced`.
Key theorems: `Rerolls.replaced`, `Modifier.reroll_replaces`.
-/
import DiceRoller.Proofs.Hand.Stuck

namespace DiceRoller

/-- How many of the rolls in front of a position are low. -/
def lowBefore (lte : Int) (rolls : List Int) (i : Nat) : Nat := (rolls.take i).countP (· ≤ lte)

theorem lowBefore_succ (lte r : Int) (rs : List Int) (i : Nat) :
    lowBefore lte (r :: rs) (i + 1) = lowBefore lte rs i + if r ≤ lte then 1 else 0 := by
  by_cases hr : r ≤ lte <;> simp [lowBefore, hr]

/-- The low ones of some rolls have been replaced by the values, position by
position. -/
structure Replaced (lte : Int) (rolls vs rolls' : List Int) : Prop where
  length_eq : rolls'.length = rolls.length
  /-- There is a value for each low roll. -/
  length_values : vs.length = rolls.countP (· ≤ lte)
  stays {i : Nat} {r : Int} : rolls[i]? = some r → lte < r → rolls'[i]? = some r
  /-- The value for a low roll is the one that has as many values in front of it as
  the roll has low ones. -/
  again {i : Nat} {r : Int} : rolls[i]? = some r → r ≤ lte →
    ∃ v, vs[lowBefore lte rolls i]? = some v ∧ rolls'[i]? = some v

namespace Replaced

variable {lte r v : Int} {rs vs rs' : List Int}

theorem cons_stay (hr : lte < r) (h : Replaced lte rs vs rs') :
    Replaced lte (r :: rs) vs (r :: rs') where
  length_eq := by simp [h.length_eq]
  length_values := by simp [h.length_values, hr]
  stays {i w} hi hw := by
    cases i with
    | zero => simpa using hi
    | succ i => exact h.stays hi hw
  again {i w} hi hw := by
    cases i with
    | zero =>
      obtain rfl : r = w := by simpa using hi
      omega
    | succ i =>
      rw [lowBefore_succ, if_neg (by omega)]
      exact h.again hi hw

theorem cons_again (hr : r ≤ lte) (h : Replaced lte rs vs rs') (v : Int) :
    Replaced lte (r :: rs) (v :: vs) (v :: rs') where
  length_eq := by simp [h.length_eq]
  length_values := by simp [h.length_values, hr]
  stays {i w} hi hw := by
    cases i with
    | zero =>
      obtain rfl : r = w := by simpa using hi
      omega
    | succ i => exact h.stays hi hw
  again {i w} hi hw := by
    cases i with
    | zero => exact ⟨v, rfl, rfl⟩
    | succ i =>
      rw [lowBefore_succ, if_pos hr]
      exact h.again hi hw

end Replaced

theorem Rerolls.replaced {lte : Int} {rolls vs rolls' : List Int}
    (h : Rerolls (.number lte) rolls vs rolls') : Replaced lte rolls vs rolls' := by
  induction h with
  | nil => exact ⟨rfl, rfl, nofun, nofun⟩
  | @stay r rs vs rs' hlow _ ih =>
    rw [Datum.atMost_number] at hlow
    exact ih.cons_stay (Int.not_le.1 (of_decide_eq_false (Except.ok.inj hlow)))
  | @again r v rs vs rs' hlow _ ih =>
    rw [Datum.atMost_number] at hlow
    exact ih.cons_again (of_decide_eq_true (Except.ok.inj hlow)) v

namespace Modifier

variable {t : DiceTerm} {h : Hand} {p : Script} {f : Fault} {T : Table} {lte : Int}

/-- A reroll that succeeds replaces the low rolls by the next values of the script,
counts them, and leaves at most a tag besides. -/
theorem reroll_of_ok (hok : (Modifier.reroll (.number lte)).apply (.playing t.draft h p) = .ok () T) :
    ∃ (vs rolls rest : List Int) (tags : Tags), Replaced lte h.rolls vs rolls ∧
      p.pending = vs ++ rest ∧
      T = .playing t.draft { h with rolls, rerolled := h.rerolled + vs.length, tags }
        ⟨vs.reverse ++ p.passed, rest⟩ := by
  obtain ⟨vs, s, h', hstep, hg, rfl⟩ := apply_of_ok hok
  cases hstep with
  | reroll hr hn =>
    obtain ⟨tags, rfl⟩ := hn.eq_tags
    obtain ⟨rest, hpending, -, rfl⟩ := Source.gives_scripted_iff.1 hg
    exact ⟨vs, _, rest, tags, hr.replaced, hpending, rfl⟩

/-- **A reroll touches each roll at most once, in order.** If it succeeds, the high
rolls are in their places, each low one has been replaced by the value drawn for it,
and as many values are drawn and counted as there are low rolls. If it fails, the tags
are what they were, and the values drawn until then are counted. The rolls are what
they were, too, if the script is stuck; they are not if the tag cannot be written. -/
theorem reroll_replaces (t : DiceTerm) (h : Hand) (lte : Int) (p : Script) :
    (∀ T, (Modifier.reroll (.number lte)).apply (.playing t.draft h p) = .ok () T →
      ∃ (vs rolls rest : List Int) (tags : Tags), Replaced lte h.rolls vs rolls ∧
        p.pending = vs ++ rest ∧
        T = .playing t.draft { h with rolls, rerolled := h.rerolled + vs.length, tags }
          ⟨vs.reverse ++ p.passed, rest⟩) ∧
      ∀ f T, (Modifier.reroll (.number lte)).apply (.playing t.draft h p) = .error f T →
        ∃ vs rest : List Int, p.pending = vs ++ rest ∧
          T.source = .scripted ⟨vs.reverse ++ p.passed, rest⟩ ∧ T.hand.tags = h.tags ∧
          T.hand.rerolled = h.rerolled + vs.length ∧ RerollFails t lte h p vs f T := by
  refine ⟨fun T hok => reroll_of_ok hok, fun f T herr => ?_⟩
  obtain ⟨vs, hfails⟩ := reroll_of_error herr
  obtain ⟨q, hg, hT⟩ : ∃ q, Source.Gives t.sides (.scripted p) vs (.scripted q) ∧
      T.source = .scripted q := by
    cases hfails with
    | stuck _ hg => exact ⟨_, hg, rfl⟩
    | tag _ hg => exact ⟨_, hg, rfl⟩
  obtain ⟨rest, hpending, -, hq⟩ := Source.gives_scripted_iff.1 hg
  refine ⟨vs, rest, hpending, hT.trans hq, ?_, ?_, hfails⟩ <;> cases hfails <;> rfl

/-- Three low rolls are replaced, one of them by a value that is low again. -/
theorem reroll_replaces_three :
    let t : DiceTerm := ⟨1, 4, 6, 0, by decide, by decide, by decide⟩
    let p : Script := .ofList [1, 6, 3, 4]
    ∃ T, (Modifier.reroll (.number 2)).apply (.playing t.draft { rolls := [2, 5, 1, 2] } p) =
        .ok () T ∧ T.hand.rolls = [1, 5, 6, 3] ∧ T.hand.rerolled = 3 ∧
      ∃ vs, Replaced 2 [2, 5, 1, 2] vs T.hand.rolls ∧ vs.length = 3 := by
  intro t p
  have hr : Rerolls (.number 2) [2, 5, 1, 2] [1, 6, 3] [1, 5, 6, 3] :=
    .again rfl (.stay rfl (.again rfl (.again rfl .nil)))
  obtain ⟨h', hstep, hrolls, hcount⟩ : ∃ h', Step t (.reroll (.number 2)) { rolls := [2, 5, 1, 2] }
      [1, 6, 3] h' ∧ h'.rolls = [1, 5, 6, 3] ∧ h'.rerolled = 3 :=
    ⟨_, .reroll hr (.tagged (by decide) (by decide +kernel)), rfl, rfl⟩
  have hok := (hstep.consumes (by decide)).full [] [4]
  obtain ⟨vs, rolls, rest, tags, hreplaced, -, hT⟩ := (reroll_replaces t _ _ _).1 _ hok
  refine ⟨_, hok, hrolls, hcount, vs, ?_, hreplaced.length_values⟩
  rw [hT]
  exact hreplaced

/-- The bound is too long to be written in the tag, and the roll has been replaced
already. -/
theorem not_rolls_kept_of_long_bound :
    let lte : Nat := Nat.pow 10 Numeral.digitLimit
    let t : DiceTerm := ⟨1, 1, 6, 0, by decide, by decide, by decide⟩
    ∃ T, (Modifier.reroll (.number lte)).apply (.playing t.draft { rolls := [3] } (.ofList [4])) =
      .error .numeralTooLongToWrite T ∧ T.hand.rolls = [4] ∧ T.hand.rolls ≠ [3] := by
  intro lte t
  have hfails := Options.reroll_of_unwritable (t := t) not_writable_limit (by decide) []
  exact ⟨_, hfails, rfl, by decide⟩

end Modifier
end DiceRoller
