/-
# Options that cannot apply

Some options never do anything to a term: drops of nothing, a reroll of what no die
shows, an explosion from above the highest face, and picks for other dice. Drops of
nothing and picks for other dice are not listed as modifiers at all. The reroll and
the explosion are, and they look at every roll; but every roll is a face of the die
(`Modifier.applyRoll_shows`), so they find nothing to do and leave the table as it is
(`Modifier.reroll_rests`, `Modifier.explode_rests`). With such options a term is
rolled as without any, by every source (`Options.rollTerm_of_idle`).

Key definitions: `Options.Idle`, `Table.Shows`.
Key theorems: `Modifier.reroll_rests`, `Modifier.explode_rests`,
`Options.rollTerm_of_idle`.
-/
import DiceRoller.Proofs.Hand.Rollable

namespace DiceRoller

/-- The options can do nothing to the term. -/
structure Options.Idle (o : Options) (t : DiceTerm) : Prop where
  dropLowest : ∀ d, o.dropLowest = some d → d.count = 0
  dropHighest : ∀ d, o.dropHighest = some d → d.count = 0
  reroll : ∀ r, o.reroll = some r → r.lte ≤ 0
  explode : ∀ e, o.explode = some e → ∃ n, e.threshold = .atLeast n ∧ (t.sides : Int) < n
  advantage : ∀ p, o.advantage = some p → t.number = 1 → p.sides ≠ t.sides
  disadvantage : ∀ p, o.disadvantage = some p → t.number = 1 → p.sides ≠ t.sides

/-- The table shows faces of the dice, none of which was rerolled or added. -/
structure Table.Shows (t : DiceTerm) (T : Table) : Prop where
  term : T.term = t.draft
  faces : ∀ r ∈ T.hand.rolls, 1 ≤ r ∧ r ≤ (t.sides : Int)
  rerolled : T.hand.rerolled = 0
  exploded : T.hand.exploded = 0

/-! ### Modifiers that find nothing to do -/

namespace Play

variable {d : Draft} {t : DiceTerm} {h : Hand} {s : Source} {e : Explode} {m v : Int}
  {rolls : List Int}

theorem rerollEach_of_lt {lte : Int} (hrolls : ∀ r ∈ rolls, lte < r) :
    rerollEach (.number lte) rolls ⟨t.draft, h, s⟩ = .ok rolls ⟨t.draft, h, s⟩ := by
  have hnone : rolls.filter (· ≤ lte) = [] := by
    rw [List.filter_eq_nil_iff]
    intro r hr
    have := hrolls r hr
    simpa using this
  have hself := rerolls_self lte rolls
  rw [hnone] at hself
  exact rerollEach_eq_ok_iff.2 ⟨[], s, hself, .nil, rfl⟩

theorem explodeEach_of_not_triggers (hrolls : ∀ r ∈ rolls, e.triggers m r = false) :
    explodeEach e (.number m) rolls ⟨d, h, s⟩ = .ok rolls ⟨d, h, s⟩ := by
  induction rolls with
  | nil => rfl
  | cons r rs ih =>
    obtain ⟨hr, hrs⟩ := List.forall_mem_cons.1 hrolls
    have hnone : extras e (.number m) r ⟨d, h, s⟩ = .ok [] ⟨d, h, s⟩ := by
      rw [extras_eq]
      exact chain_eq_ok_iff.2 ⟨.rest hr, s, .nil, rfl⟩
    rw [explodeEach, bind_of_ok hnone, update_bind]
    exact (bind_of_ok (ih hrs)).trans rfl

end Play

namespace Modifier

variable {t : DiceTerm} {T U : Table} {ms : List Modifier}

theorem applyAll_of_rests (hms : ∀ m ∈ ms, m.apply T = .ok () T) : applyAll ms T = .ok () T := by
  induction ms with
  | nil => rfl
  | cons m ms ih =>
    obtain ⟨hm, hms⟩ := List.forall_mem_cons.1 hms
    exact (bind_of_ok hm).trans (ih hms)

theorem reroll_rests {lte : Int} (hT : T.Shows t) (hlte : lte ≤ 0) :
    (Modifier.reroll (.number lte)).apply T = .ok () T := by
  obtain ⟨d, h, s⟩ := T
  obtain ⟨rfl, hfaces, hrerolled, -⟩ := hT
  have hrolls : Play.rerollEach (.number lte) h.rolls ⟨t.draft, h, s⟩ =
      .ok h.rolls ⟨t.draft, h, s⟩ := Play.rerollEach_of_lt fun r hr => by
    have := (hfaces r hr).1
    omega
  rw [apply, applyReroll, Play.hand_bind, bind_of_ok hrolls, Play.update_bind, Play.hand_bind]
  exact note_eq_ok_iff.2 ⟨h, .never hrerolled, rfl⟩

theorem explode_rests {e : Explode} {n : Int} (hT : T.Shows t) (he : e.threshold = .atLeast n)
    (hn : (t.sides : Int) < n) : (Modifier.explode (some e)).apply T = .ok () T := by
  obtain ⟨d, h, s⟩ := T
  obtain ⟨rfl, hfaces, -, hexploded⟩ := hT
  have hrolls : Play.explodeEach e (.number t.sides) h.rolls ⟨t.draft, h, s⟩ =
      .ok h.rolls ⟨t.draft, h, s⟩ := Play.explodeEach_of_not_triggers fun r hr => by
    have := (hfaces r hr).2
    simp only [Explode.triggers, he, decide_eq_false_iff_not]
    omega
  rw [apply, applyExplode, Play.hand_bind, bind_of_ok Play.sides_draft, chosen_bind,
    bind_of_ok hrolls, Play.update_bind, Play.hand_bind]
  exact note_eq_ok_iff.2 ⟨h, .never hexploded, rfl⟩

theorem applyRoll_shows {s : Source} (hok : Modifier.roll.apply ⟨t.draft, {}, s⟩ = .ok () T) :
    T.Shows t := by
  obtain ⟨vs, s', h', hs, hg, rfl⟩ := apply_of_ok hok
  cases hs with
  | roll => exact ⟨rfl, hg.mem_range, rfl, rfl⟩

end Modifier

/-! ### Rolls with idle options -/

namespace Options

variable {o : Options} {t : DiceTerm}

theorem Idle.not_picks (hi : o.Idle t) :
    picks o.advantage t = false ∧ picks o.disadvantage t = false := by
  have hnot {part : Option MultiRoll}
      (hp : ∀ p, part = some p → t.number = 1 → p.sides ≠ t.sides) : picks part t = false := by
    cases part with
    | none => rfl
    | some p =>
      have := hp p rfl
      simp only [picks, Option.any_some, MultiRoll.applies, Bool.and_eq_false_iff, beq_eq_false_iff_ne]
      by_cases hnum : t.number = 1
      · exact .inr fun hsides => this hnum hsides.symm
      · exact .inl hnum
  exact ⟨hnot hi.advantage, hnot hi.disadvantage⟩

/-- The dice are simply rolled, and nothing is dropped but what the term drops. -/
theorem Idle.modifiersFor_eq (hi : o.Idle t) : o.modifiersFor t = .roll ::
    ([o.reroll.map fun r => .reroll (.number r.lte),
      o.explode.map fun e => .explode (some e)].reduceOption ++ droppingModifiers {} t) := by
  obtain ⟨hadvantage, hdisadvantage⟩ := hi.not_picks
  have hfirst : o.initialRoll t = .roll := by
    rw [initialRoll, pick?_of_not_picks (by rw [hadvantage]; decide),
      pick?_of_not_picks (by rw [hdisadvantage]; decide)]
    rfl
  have hnone {part : Option DropCount} (kind : Drop) (hp : ∀ d, part = some d → d.count = 0) :
      (part.bind fun d => dropOf kind d.count) = none := by
    cases part with
    | none => rfl
    | some d => exact if_pos (hp d rfl)
  have hdrops : o.droppingModifiers t = droppingModifiers {} t := by
    rw [droppingModifiers, hnone .lowest hi.dropLowest, hnone .highest hi.dropHighest]
    rfl
  rw [modifiersFor_eq_cons, laterModifiers, hfirst, hdrops]

/-- What stands between the roll and the drops leaves the table as it is. -/
theorem Idle.applyAll_eq (hi : o.Idle t) (s : Source) :
    Modifier.applyAll (o.modifiersFor t) ⟨t.draft, {}, s⟩ =
      Modifier.applyAll (.roll :: droppingModifiers {} t) ⟨t.draft, {}, s⟩ := by
  rw [hi.modifiersFor_eq]
  cases hroll : Modifier.roll.apply ⟨t.draft, {}, s⟩ with
  | error f T => exact (bind_of_error hroll).trans (bind_of_error hroll).symm
  | ok u T =>
    have hT := Modifier.applyRoll_shows hroll
    have hrests : Modifier.applyAll ([o.reroll.map fun r => Modifier.reroll (.number r.lte),
        o.explode.map fun e => Modifier.explode (some e)].reduceOption) T = .ok () T := by
      refine Modifier.applyAll_of_rests fun m hm => ?_
      rcases reroll_or_explode_of_mem hm with ⟨r, hr, rfl⟩ | ⟨e, he, rfl⟩
      · exact Modifier.reroll_rests hT (hi.reroll r hr)
      · obtain ⟨n, hn, hlt⟩ := hi.explode e he
        exact Modifier.explode_rests hT hn hlt
    refine (bind_of_ok hroll).trans (.trans ?_ (bind_of_ok hroll).symm)
    rw [Modifier.applyAll_append]
    exact bind_of_ok hrests

theorem rollTerm_of_idle (hi : o.Idle t) : o.rollTerm t = Options.rollTerm {} t := by
  have hnone : Options.Idle {} t := ⟨nofun, nofun, nofun, nofun, nofun, nofun⟩
  funext s
  rw [rollTerm, rollTerm, hi.applyAll_eq, hnone.applyAll_eq]

end Options
end DiceRoller
