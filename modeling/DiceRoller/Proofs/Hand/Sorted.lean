/-
# Sorted modifiers keep the books of a hand

The books of a hand are the values dropped: no value may be dropped more often
than it was rolled, and then the hand is worth its rolls less the values dropped
(`Hand.Accounted`). A drop keeps the books, as it takes only what is still kept.
A roll, a reroll or an explosion after a drop need not, as it changes the rolls
but not the values dropped.

Sorting by weight puts every drop behind everything that rolls; only a plain
drop, which weighs as little as a roll, has no such place. So up to the first
drop nothing is dropped, and from there on the rolls stay as they are. Both are
properties of the hand that each step keeps, also a step that fails half-way
(`Play.Keeps`).

Key definitions: `Play.left`, `Play.Keeps`, `Hand.Accounted`,
`Modifier.leaveAll`.
Key theorems: `Play.Keeps.bind`, `Modifier.apply_keeps_undropped`,
`Modifier.applyDrop_keeps`, `Modifier.sort_accounts`.
-/
import DiceRoller.Proofs.Hand.DropLaw
import Mathlib.Data.List.Pairwise
import Mathlib.Data.List.Permutation

namespace DiceRoller

/-! ### What a step leaves -/

namespace Play

variable {α β : Type} {P : Hand → Prop} {x : Play α} {k : α → Play β} {T U : Table}

/-- The table that a step leaves, whether it succeeds or fails. -/
def left (x : Play α) (T : Table) : Table :=
  match x T with
  | .ok _ U => U
  | .error _ U => U

theorem left_of_ok {a : α} (h : x T = .ok a U) : x.left T = U := by rw [left, h]

theorem left_of_error {f : Fault} (h : x T = .error f U) : x.left T = U := by rw [left, h]

/-- A hand that has the property still has it after the step, also if the step
fails. -/
def Keeps (P : Hand → Prop) (x : Play α) : Prop := ∀ T, P T.hand → P (x.left T).hand

namespace Keeps

/-- A step that does not touch the hand. -/
theorem quiet (hx : ∀ T, (x.left T).hand = T.hand) : Keeps P x := by
  intro T hT
  rwa [hx T]

protected theorem pure (a : α) : Keeps P (pure a : Play α) := quiet fun _ => rfl

theorem throw (f : Fault) : Keeps P (throw f : Play α) := quiet fun _ => rfl

theorem bind (hx : Keeps P x) (hk : ∀ a, Keeps P (k a)) : Keeps P (x >>= k) := by
  intro T hT
  have hfirst := hx T hT
  cases hrun : x T with
  | ok a U =>
    have hboth : (x >>= k).left T = (k a).left U := by rw [left, left, bind_of_ok hrun]
    rw [left_of_ok hrun] at hfirst
    rw [hboth]
    exact hk a U hfirst
  | error f U =>
    rw [left_of_error hrun] at hfirst
    rwa [left_of_error (bind_of_error hrun)]

end Keeps

/-! ### Draws do not touch the hand -/

theorem ofExcept_keeps (r : Except Fault α) : Keeps P (ofExcept r) := by
  cases r with
  | ok a => exact .pure a
  | error f => exact .throw f

theorem update_keeps {g : Hand → Hand} (hg : ∀ h, P h → P (g h)) : Keeps P (update g) :=
  fun T hT => hg T.hand hT

theorem hand_keeps : Keeps P hand := .quiet fun _ => rfl

theorem number_keeps : Keeps P number := by
  rintro ⟨term, h, s⟩ hT
  cases term with
  | dice _ number _ _ => exact ofExcept_keeps (timesOf number) ⟨_, h, s⟩ hT
  | _ => exact hT

theorem sides_keeps : Keeps P sides := by
  refine .quiet fun T => ?_
  unfold left sides
  cases T.term <;> rfl

theorem die_keeps (m : Datum) : Keeps P (die m) := by
  refine .quiet fun T => ?_
  unfold left die
  cases Source.roll m T.source <;> rfl

theorem ownDie_keeps : Keeps P ownDie := sides_keeps.bind die_keeps

theorem dice_keeps (n : Nat) : Keeps P (dice n) := by
  induction n with
  | zero => exact .pure []
  | succ n ih => exact ownDie_keeps.bind fun v => ih.bind fun vs => .pure (v :: vs)

theorem chain_keeps (e : Explode) (m : Datum) (room : Nat) (v : Int) :
    Keeps P (chain e m room v) := by
  induction room generalizing v with
  | zero =>
    unfold chain
    by_cases hcap : (e.cap != 0) = true
    · simp only [hcap, if_true]
      exact .pure []
    · simp only [hcap]
      refine (ofExcept_keeps _).bind fun b => ?_
      cases b with
      | true =>
        -- a chain without a cap that has run out of room fails
        exact (Keeps.throw _).bind fun _ => .pure []
      | false => exact .pure []
  | succ room ih =>
    unfold chain
    refine (ofExcept_keeps _).bind fun b => ?_
    cases b with
    | true => exact (die_keeps m).bind fun w => (ih w).bind fun ws => .pure (w :: ws)
    | false => exact .pure []

theorem extras_keeps (e : Explode) (m : Datum) (v : Int) : Keeps P (extras e m v) :=
  Keeps.bind (.quiet fun _ => rfl) fun _ => chain_keeps e m _ v

/-! ### Rolling drops nothing -/

theorem update_keeps_undropped {g : Hand → Hand} (hg : ∀ h, (g h).dropped = h.dropped) :
    Keeps (·.dropped = []) (update g) :=
  update_keeps fun h hh => (hg h).trans hh

theorem again_keeps : Keeps (·.dropped = []) again :=
  ownDie_keeps.bind fun v => .bind (update_keeps_undropped fun _ => rfl) fun _ => .pure v

theorem rerollEach_keeps (lte : Datum) (rolls : List Int) :
    Keeps (·.dropped = []) (rerollEach lte rolls) := by
  induction rolls with
  | nil => exact .pure []
  | cons r rs ih =>
    have hrest : ∀ v, Keeps (·.dropped = []) (do
        let vs ← rerollEach lte rs
        return v :: vs) := fun v => ih.bind fun vs => .pure (v :: vs)
    unfold rerollEach
    refine (ofExcept_keeps _).bind fun low => ?_
    cases low with
    | true => exact again_keeps.bind hrest
    | false => exact hrest r

theorem explodeEach_keeps (e : Explode) (m : Datum) (rolls : List Int) :
    Keeps (·.dropped = []) (explodeEach e m rolls) := by
  induction rolls with
  | nil => exact .pure []
  | cons v vs ih =>
    exact (extras_keeps e m v).bind fun added =>
      .bind (update_keeps_undropped fun _ => rfl) fun _ => ih.bind fun rest => .pure _

end Play

/-! ### The books of a hand -/

/-- No value is dropped more often than it was rolled, and the hand is worth its
rolls less the values dropped. -/
structure Hand.Accounted (h : Hand) : Prop where
  count_le : ∀ v, h.dropped.count v ≤ h.rolls.count v
  value_eq : h.value = h.rolls.sum - ((tally h.dropped).map fun p => p.1 * (p.2 : Int)).sum

namespace Hand

variable {h : Hand}

theorem accounted_of_count_le (hle : ∀ v, h.dropped.count v ≤ h.rolls.count v) : h.Accounted :=
  ⟨hle, value_eq_of_count_le hle⟩

theorem accounted_of_undropped (hd : h.dropped = []) : h.Accounted :=
  accounted_of_count_le fun v => by simp [hd]

theorem Accounted.drop (ha : h.Accounted) (num : Int) (highest : Bool) :
    (h.drop num highest).Accounted :=
  accounted_of_count_le (count_drop_le ha.count_le num highest)

theorem Accounted.tag (ha : h.Accounted) (key : Int) (text : String) :
    (h.tag key text).Accounted :=
  accounted_of_count_le ha.count_le

end Hand

/-! ### What each modifier keeps -/

namespace Modifier

open Play (Keeps left)

variable {m : Modifier} {ms ns : List Modifier} {T : Table}

theorem leaveTag_keeps {P : Hand → Prop} (htag : ∀ h key text, P h → P (h.tag key text)) (key : Int)
    (numbers : List Int) (text : String) : Keeps P (leaveTag key numbers text) :=
  (Play.ofExcept_keeps _).bind fun text => Play.update_keeps fun h hh => htag h key text hh

theorem leaveTag_keeps_undropped (key : Int) (numbers : List Int) (text : String) :
    Keeps (·.dropped = []) (leaveTag key numbers text) :=
  leaveTag_keeps (fun _ _ _ hh => hh) key numbers text

theorem applyRoll_keeps : Keeps (·.dropped = []) applyRoll :=
  Play.number_keeps.bind fun n => (Play.dice_keeps n).bind fun _ =>
    Play.update_keeps_undropped fun _ => rfl

theorem applyPick_keeps (times highest : Datum) :
    Keeps (·.dropped = []) (applyPick times highest) := by
  refine (Play.ofExcept_keeps _).bind fun n => (Play.dice_keeps n).bind fun samples => ?_
  refine .bind (Play.update_keeps_undropped fun _ => rfl) fun _ => ?_
  cases best? highest.holds samples with
  | none => exact .throw _
  | some v => exact Play.update_keeps_undropped fun _ => rfl

theorem applyReroll_keeps (lte : Datum) : Keeps (·.dropped = []) (applyReroll lte) := by
  refine Play.hand_keeps.bind fun h => (Play.rerollEach_keeps lte h.rolls).bind fun rolls => ?_
  refine .bind (Play.update_keeps_undropped fun _ => rfl) fun _ => Play.hand_keeps.bind fun h => ?_
  by_cases hnone : h.rerolled = 0
  · simp only [hnone, if_true]
    exact .pure ()
  · simp only [hnone]
    exact leaveTag_keeps_undropped _ _ _

theorem applyExplode_keeps (e : Option Explode) : Keeps (·.dropped = []) (applyExplode e) := by
  refine Play.hand_keeps.bind fun h => Play.sides_keeps.bind fun m => ?_
  have hchosen : Keeps (·.dropped = []) (chosen e) := by
    cases e with
    | none => exact .throw _
    | some e => exact .pure e
  refine hchosen.bind fun e => (Play.explodeEach_keeps e m h.rolls).bind fun rolls => ?_
  refine .bind (Play.update_keeps_undropped fun _ => rfl) fun _ => Play.hand_keeps.bind fun h => ?_
  by_cases hnone : h.exploded = 0
  · simp only [hnone, if_true]
    exact .pure ()
  · simp only [hnone]
    exact leaveTag_keeps_undropped _ _ _

theorem applyDrop_keeps (kind : Drop) (num : Datum) :
    Keeps Hand.Accounted (applyDrop kind num) := by
  have hdrop : Keeps Hand.Accounted (dropValues num kind.isHigh) :=
    (Play.ofExcept_keeps _).bind fun count => Play.hand_keeps.bind fun _ =>
      (Play.update_keeps fun _ ha => ha.drop count kind.isHigh).bind fun _ => .pure _
  refine hdrop.bind fun _ => ?_
  cases kind.tag? with
  | none => exact .pure ()
  | some tag => exact leaveTag_keeps (fun _ key text ha => ha.tag key text) _ _ _

/-- A modifier of less weight than any drop drops nothing. -/
theorem apply_keeps_undropped (hm : m.weight < 3) (hplain : ∀ num, m ≠ .drop .plain num) :
    Keeps (·.dropped = []) m.apply := by
  cases m with
  | roll => exact applyRoll_keeps
  | pick times highest => exact applyPick_keeps times highest
  | reroll lte => exact applyReroll_keeps lte
  | explode e => exact applyExplode_keeps e
  | drop kind num =>
    cases kind with
    | plain => exact absurd rfl (hplain num)
    | _ => simp [weight, Drop.weight] at hm

theorem apply_keeps_accounted (hm : 3 ≤ m.weight) : Keeps Hand.Accounted m.apply := by
  cases m with
  | drop kind num => exact applyDrop_keeps kind num
  | _ => simp [weight] at hm

/-! ### Modifiers in order -/

/-- The table after the modifiers have been applied one after the other, going on
also after one that failed. -/
def leaveAll (ms : List Modifier) (T : Table) : Table := ms.foldl (fun T m => m.apply.left T) T

theorem leaveAll_cons (m : Modifier) (ms : List Modifier) (T : Table) :
    leaveAll (m :: ms) T = leaveAll ms (m.apply.left T) := rfl

theorem leaveAll_keeps {P : Hand → Prop} (hms : ∀ m ∈ ms, Keeps P m.apply) (hT : P T.hand) :
    P (leaveAll ms T).hand := by
  induction ms generalizing T with
  | nil => exact hT
  | cons m ms ih =>
    rw [leaveAll_cons]
    exact ih (fun n hn => hms n (List.mem_cons_of_mem _ hn)) (hms m List.mem_cons_self T hT)

/-- A run ends with the first modifier that fails. -/
theorem exists_left_applyAll (ms : List Modifier) (T : Table) :
    ∃ done rest, ms = done ++ rest ∧ (applyAll ms).left T = leaveAll done T := by
  induction ms generalizing T with
  | nil => exact ⟨[], [], rfl, rfl⟩
  | cons m ms ih =>
    cases hrun : m.apply T with
    | ok a U =>
      obtain ⟨done, rest, hsplit, hleft⟩ := ih U
      refine ⟨m :: done, rest, by rw [hsplit, List.cons_append], ?_⟩
      rw [leaveAll_cons, Play.left_of_ok hrun, ← hleft, left, left, applyAll, bind_of_ok hrun]
    | error f U =>
      refine ⟨[m], ms, rfl, ?_⟩
      rw [applyAll, Play.left_of_error (bind_of_error hrun)]
      exact (Play.left_of_error hrun).symm

theorem sort_perm (ms : List Modifier) : (sort ms).Perm ms := List.mergeSort_perm ms _

theorem sort_pairwise (ms : List Modifier) :
    (sort ms).Pairwise fun m n => m.weight ≤ n.weight := by
  have htotal : Std.Total fun m n : Modifier => m.weight ≤ n.weight :=
    ⟨fun m n => Nat.le_total m.weight n.weight⟩
  have htrans : IsTrans Modifier fun m n => m.weight ≤ n.weight := ⟨fun _ _ _ => Nat.le_trans⟩
  exact List.pairwise_mergeSort' _ ms

/-- Modifiers of different weights have one order only. -/
theorem sort_eq_of_perm (hp : ms.Perm ns)
    (hne : ms.Pairwise fun m n => m.weight ≠ n.weight) : sort ms = sort ns := by
  have hinj : ∀ m ∈ ms, ∀ n ∈ ms, m.weight = n.weight → m = n := by
    intro m hm n hn heq
    by_contra h
    have hsymm : Std.Symm fun m n : Modifier => m.weight ≠ n.weight := ⟨fun _ _ => Ne.symm⟩
    exact hne.forall hm hn h heq
  refine ((sort_perm ms).trans (hp.trans (sort_perm ns).symm)).eq_of_pairwise ?_
    (sort_pairwise ms) (sort_pairwise ns)
  intro m n hm hn hmn hnm
  exact hinj m ((sort_perm ms).subset hm) n (hp.symm.subset ((sort_perm ns).subset hn))
    (Nat.le_antisymm hmn hnm)

/-- The drops of sorted modifiers come after everything that rolls. -/
theorem leaveAll_accounted (hsorted : ms.Pairwise fun m n => m.weight ≤ n.weight)
    (hplain : ∀ m ∈ ms, ∀ num, m ≠ .drop .plain num) (hT : T.hand.dropped = []) :
    (leaveAll ms T).hand.Accounted := by
  induction ms generalizing T with
  | nil => exact Hand.accounted_of_undropped hT
  | cons m ms ih =>
    obtain ⟨hm, hms⟩ := List.pairwise_cons.1 hsorted
    by_cases hrolls : m.weight < 3
    · have hleft := apply_keeps_undropped hrolls (hplain m List.mem_cons_self) T hT
      exact ih hms (fun n hn => hplain n (List.mem_cons_of_mem _ hn)) hleft
    · -- from the first drop on there are only drops
      have hdrops : ∀ n ∈ m :: ms, 3 ≤ n.weight := by
        intro n hn
        rcases List.mem_cons.1 hn with rfl | hn
        · omega
        · have := hm n hn
          omega
      exact leaveAll_keeps (fun n hn => apply_keeps_accounted (hdrops n hn))
        (Hand.accounted_of_undropped hT)

/-- Sorted modifiers keep the books of a fresh hand: after every step of the run,
which ends with the first one that fails, and after every step of those that go
on from there. Modifiers of different weights are applied in the same order,
whatever order they are listed in. -/
theorem sort_accounts (t : DiceTerm) (s : Source) (ms : List Modifier)
    (hplain : ∀ m ∈ ms, ∀ num, m ≠ .drop .plain num) :
    (∀ done rest, sort ms = done ++ rest →
      ((applyAll done).left ⟨t.draft, {}, s⟩).hand.Accounted ∧
      (leaveAll done ⟨t.draft, {}, s⟩).hand.Accounted) ∧
    ∀ ns, ms.Perm ns → (ms.Pairwise fun m n => m.weight ≠ n.weight) → sort ms = sort ns := by
  refine ⟨?_, fun ns => sort_eq_of_perm⟩
  have hfront : ∀ done rest, sort ms = done ++ rest →
      (leaveAll done ⟨t.draft, {}, s⟩).hand.Accounted := by
    intro done rest hsplit
    have hsorted := sort_pairwise ms
    rw [hsplit] at hsorted
    refine leaveAll_accounted (List.pairwise_append.1 hsorted).1 (fun m hm => ?_) rfl
    have hmem : m ∈ sort ms := hsplit ▸ List.mem_append_left rest hm
    exact hplain m ((sort_perm ms).subset hmem)
  intro done rest hsplit
  refine ⟨?_, hfront done rest hsplit⟩
  obtain ⟨ran, skipped, rfl, hleft⟩ := exists_left_applyAll done ⟨t.draft, {}, s⟩
  rw [hleft]
  exact hfront ran (skipped ++ rest) (by rw [hsplit, List.append_assoc])

/-- A roll after a drop leaves a value dropped that is no longer there. -/
example : (left (apply .roll) ⟨.dice (.number 1) (.number 1) (.number 6) (.number 0),
    { rolls := [2], dropped := [2] }, .scripted (.ofList [5])⟩).hand =
      { rolls := [5], dropped := [2] } := rfl

/-- The explosion fails as the script has run out, and the drop goes on from
there. -/
theorem sort_accounts_failed :
    let t : DiceTerm := ⟨1, 2, 6, 1, by decide, by decide, by decide⟩
    let start : Table := ⟨t.draft, {}, .scripted (.ofList [6, 2])⟩
    let ms : List Modifier := [.drop .inTerm (.number 1), .explode (some ⟨.max, 1⟩), .roll]
    sort ms = [.roll, .explode (some ⟨.max, 1⟩), .drop .inTerm (.number 1)] ∧
      sort ms = sort ms.reverse ∧
      ((applyAll (sort ms)).left start).hand = { rolls := [6, 2] } ∧
      (leaveAll (sort ms) start).hand = { rolls := [6, 2], dropped := [2] } ∧
      ((applyAll (sort ms)).left start).hand.Accounted ∧
      (leaveAll (sort ms) start).hand.Accounted := by
  intro t start ms
  have hsort : sort ms = [.roll, .explode (some ⟨.max, 1⟩), .drop .inTerm (.number 1)] := by cbv
  obtain ⟨hsteps, horder⟩ := sort_accounts t (.scripted (.ofList [6, 2])) ms (by simp [ms])
  have hsame := horder _ (List.reverse_perm ms).symm (by simp [ms, weight, Drop.weight])
  obtain ⟨hrun, hall⟩ := hsteps _ [] (List.append_nil _).symm
  refine ⟨hsort, hsame, ?_, ?_, hrun, hall⟩
  · rw [hsort]
    rfl
  · rw [hsort]
    calc (leaveAll [.roll, .explode (some ⟨.max, 1⟩), .drop .inTerm (.number 1)] start).hand
        = (leaveAll [.drop .inTerm (.number 1)]
            ⟨t.draft, { rolls := [6, 2] }, .scripted ⟨[2, 6], []⟩⟩).hand := rfl
      _ = { rolls := [6, 2], dropped := [2] } := by cbv

end Modifier
end DiceRoller
