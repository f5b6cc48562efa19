/-
# What a step of play does when it succeeds

Each step at the table has one statement here that says exactly when it
succeeds, with what, and how it leaves the table: the dice of a term
(`Play.dice_eq_ok_iff`), rerolls (`Play.rerollEach_eq_ok_iff`), the chain of
one die (`Play.chain_eq_ok_iff`) and explosions (`Play.explodeEach_of_ok`). The
values drawn are spoken of by `Source.Gives`; what they are used for is said by
three relations, which know nothing of tables and sources: `Rerolls`,
`Explode.Adds` and `Explodes`.

A chain without a cap goes on for as long as the source has values. On a
generator it may meet the bound that stands in for "forever", so for explosions
only one direction holds.

Key definitions: `Rerolls`, `Explode.Chain`, `Explode.Adds`, `Explodes`.
Key theorems: `Play.dice_eq_ok_iff`, `Play.rerollEach_eq_ok_iff`,
`Play.chain_eq_ok_iff`, `Play.explodeEach_of_ok`.
-/
import DiceRoller.Hand.Play
import DiceRoller.Proofs.Source.Draws
import DiceRoller.Proofs.Steps

namespace DiceRoller
namespace Play

variable {d : Draft} {t : DiceTerm} {h : Hand} {s : Source} {T : Table}

theorem ofExcept_eq_ok_iff {α : Type} {x : Except Fault α} {a : α} {U : Table} :
    ofExcept x T = .ok a U ↔ x = .ok a ∧ T = U :=
  check_eq_ok_iff_of (fun _ => rfl) fun _ => rfl

/-- What is asked of data first does not touch the table. -/
theorem ofExcept_bind_eq_ok_iff {α β : Type} {x : Except Fault α} {f : α → Play β} {b : β}
    {U : Table} : (ofExcept x >>= f) T = .ok b U ↔ ∃ a, x = .ok a ∧ f a T = .ok b U :=
  check_bind_eq_ok_iff_of (fun _ => rfl) fun _ => rfl

theorem update_bind {β : Type} (f : Hand → Hand) (k : Unit → Play β) :
    (update f >>= k) T = k () { T with hand := f T.hand } := rfl

theorem hand_bind {β : Type} (k : Hand → Play β) : (hand >>= k) T = k T.hand T := rfl

@[simp] theorem sides_draft : sides ⟨t.draft, h, s⟩ = .ok (.number t.sides) ⟨t.draft, h, s⟩ := rfl

@[simp] theorem number_draft : number ⟨t.draft, h, s⟩ = .ok t.number ⟨t.draft, h, s⟩ := rfl

/-! ### Dice -/

theorem die_eq_ok_iff {m v : Int} :
    die (.number m) ⟨d, h, s⟩ = .ok v T ↔ ∃ s', s.draw 1 m = .ok v s' ∧ T = ⟨d, h, s'⟩ := by
  simp only [die, Source.roll_number]
  constructor
  · intro hd
    split at hd
    · next hs =>
      cases hd
      exact ⟨_, hs, rfl⟩
    · cases hd
  · rintro ⟨s', hs, rfl⟩
    rw [hs]

theorem ownDie_eq_ok_iff {v : Int} :
    ownDie ⟨t.draft, h, s⟩ = .ok v T ↔
      ∃ s', s.draw 1 t.sides = .ok v s' ∧ T = ⟨t.draft, h, s'⟩ := by
  rw [ownDie, bind_of_ok sides_draft, die_eq_ok_iff]

/-- Dice are rolled with as many draws. -/
theorem dice_eq_ok_iff {n : Nat} {vs : List Int} :
    dice n ⟨t.draft, h, s⟩ = .ok vs T ↔
      vs.length = n ∧ ∃ s', s.Gives t.sides vs s' ∧ T = ⟨t.draft, h, s'⟩ := by
  induction n generalizing s vs with
  | zero =>
    rw [dice, pure_eq_ok_iff]
    constructor
    · rintro ⟨rfl, rfl⟩
      exact ⟨rfl, s, .nil, rfl⟩
    · rintro ⟨hl, s', hg, rfl⟩
      cases List.length_eq_zero_iff.1 hl
      cases hg
      exact ⟨rfl, rfl⟩
  | succ n ih =>
    rw [dice, cons_eq_ok_iff]
    constructor
    · rintro ⟨v, _, ws, hv, hws, rfl⟩
      obtain ⟨s₁, hd, rfl⟩ := ownDie_eq_ok_iff.1 hv
      obtain ⟨hl, s', hg, hT⟩ := ih.1 hws
      exact ⟨by rw [List.length_cons, hl], s', .cons hd hg, hT⟩
    · rintro ⟨hl, s', hg, rfl⟩
      cases hg with
      | nil => cases hl
      | cons hd hg =>
        have hv := (ownDie_eq_ok_iff (h := h)).2 ⟨_, hd, rfl⟩
        have hws := ih.2 ⟨Nat.succ_inj.1 hl, s', hg, rfl⟩
        exact ⟨_, _, _, hv, hws, rfl⟩

end Play

/-! ### Rerolls -/

/-- The low ones of some rolls are replaced by the values, in order. -/
inductive Rerolls (lte : Datum) : List Int → List Int → List Int → Prop
  | nil : Rerolls lte [] [] []
  | stay {r : Int} {rs vs rs' : List Int} : Datum.atMost (.number r) lte = .ok false →
      Rerolls lte rs vs rs' → Rerolls lte (r :: rs) vs (r :: rs')
  | again {r v : Int} {rs vs rs' : List Int} : Datum.atMost (.number r) lte = .ok true →
      Rerolls lte rs vs rs' → Rerolls lte (r :: rs) (v :: vs) (v :: rs')

namespace Play

variable {d : Draft} {t : DiceTerm} {h : Hand} {s : Source} {T : Table}

theorem again_eq_ok_iff {v : Int} :
    again ⟨t.draft, h, s⟩ = .ok v T ↔ ∃ s', s.draw 1 t.sides = .ok v s' ∧
      T = ⟨t.draft, { h with rerolled := h.rerolled + 1 }, s'⟩ := by
  simp only [again, bind_eq_ok_iff (x := ownDie), ownDie_eq_ok_iff, update_bind, pure_eq_ok_iff]
  constructor
  · rintro ⟨_, _, ⟨s', hd, rfl⟩, rfl, rfl⟩
    exact ⟨s', hd, rfl⟩
  · rintro ⟨s', hd, rfl⟩
    exact ⟨v, _, ⟨s', hd, rfl⟩, rfl, rfl⟩

/-- Rerolls draw one value for each low roll, and count them. -/
theorem rerollEach_eq_ok_iff {lte : Datum} {rolls rolls' : List Int} :
    rerollEach lte rolls ⟨t.draft, h, s⟩ = .ok rolls' T ↔
      ∃ vs s', Rerolls lte rolls vs rolls' ∧ s.Gives t.sides vs s' ∧
        T = ⟨t.draft, { h with rerolled := h.rerolled + vs.length }, s'⟩ := by
  induction rolls generalizing rolls' h s with
  | nil =>
    rw [rerollEach, pure_eq_ok_iff]
    constructor
    · rintro ⟨rfl, rfl⟩
      exact ⟨[], s, .nil, .nil, rfl⟩
    · rintro ⟨vs, s', ⟨⟩, ⟨⟩, rfl⟩
      exact ⟨rfl, rfl⟩
  | cons r rs ih =>
    rw [rerollEach, ofExcept_bind_eq_ok_iff]
    constructor
    · rintro ⟨low, hlow, hc⟩
      cases low with
      | true =>
        obtain ⟨v, _, rs', hv, hrs, rfl⟩ := cons_eq_ok_iff.1 hc
        obtain ⟨s₁, hd, rfl⟩ := again_eq_ok_iff.1 hv
        obtain ⟨vs, s', hr, hg, rfl⟩ := ih.1 hrs
        refine ⟨v :: vs, s', .again hlow hr, .cons hd hg, ?_⟩
        rw [List.length_cons, Nat.add_assoc, Nat.add_comm 1]
      | false =>
        obtain ⟨v, _, rs', hv, hrs, rfl⟩ := cons_eq_ok_iff.1 hc
        obtain ⟨rfl, rfl⟩ := pure_eq_ok_iff.1 hv
        obtain ⟨vs, s', hr, hg, hT⟩ := ih.1 hrs
        exact ⟨vs, s', .stay hlow hr, hg, hT⟩
    · rintro ⟨vs, s', hr, hg, rfl⟩
      cases hr with
      | stay hlow hr =>
        have hrs := ih.2 ⟨vs, s', hr, hg, rfl⟩
        exact ⟨false, hlow, cons_eq_ok_iff.2 ⟨r, _, _, rfl, hrs, rfl⟩⟩
      | again hlow hr =>
        cases hg with
        | cons hd hg =>
          have hv := (again_eq_ok_iff (h := h)).2 ⟨_, hd, rfl⟩
          have hrs := (ih (h := { h with rerolled := h.rerolled + 1 })).2
            ⟨_, s', hr, hg, by rw [List.length_cons, Nat.add_assoc, Nat.add_comm 1]⟩
          exact ⟨true, hlow, cons_eq_ok_iff.2 ⟨_, _, _, hv, hrs, rfl⟩⟩

end Play

/-! ### Explosions -/

/-- The values that a die which shows `v` adds, with room for so many: each but
the last triggers the next one, and the chain rests where one does not trigger,
or where the cap leaves no room. -/
inductive Explode.Chain (e : Explode) (sides : Int) : Nat → Int → List Int → Prop
  | rest {room : Nat} {v : Int} : e.triggers sides v = false → Chain e sides room v []
  | full {v : Int} : e.cap ≠ 0 → Chain e sides 0 v []
  | next {room : Nat} {v w : Int} {ws : List Int} : e.triggers sides v = true →
      Chain e sides room w ws → Chain e sides (room + 1) v (w :: ws)

/-- The values that a die which shows `v` adds, within the cap if there is one. -/
def Explode.Adds (e : Explode) (sides v : Int) (ws : List Int) : Prop :=
  ∃ room, (e.cap ≠ 0 → room = e.cap) ∧ e.Chain sides room v ws

/-- Each roll is followed by what it adds. -/
inductive Explodes (e : Explode) (sides : Int) : List Int → List Int → List Int → Prop
  | nil : Explodes e sides [] [] []
  | cons {v : Int} {ws rs vs rs' : List Int} : e.Adds sides v ws → Explodes e sides rs vs rs' →
      Explodes e sides (v :: rs) (ws ++ vs) (v :: (ws ++ rs'))

namespace Play

variable {d : Draft} {t : DiceTerm} {h : Hand} {s : Source} {T : Table} {e : Explode}

/-- A chain draws the values that it adds. -/
theorem chain_eq_ok_iff {m v : Int} {room : Nat} {ws : List Int} :
    chain e (.number m) room v ⟨d, h, s⟩ = .ok ws T ↔
      e.Chain m room v ws ∧ ∃ s', s.Gives m ws s' ∧ T = ⟨d, h, s'⟩ := by
  induction room generalizing v s ws with
  | zero =>
    rw [chain, Explode.triggersFor_number]
    by_cases hcap : e.cap = 0
    · rw [if_neg (by simpa using hcap), ofExcept_bind_eq_ok_iff]
      constructor
      · rintro ⟨b, hb, hok⟩
        cases b with
        | true => cases hok
        | false =>
          obtain ⟨rfl, rfl⟩ := pure_eq_ok_iff.1 hok
          exact ⟨.rest (Except.ok.inj hb), s, .nil, rfl⟩
      · rintro ⟨hc, s', hg, rfl⟩
        cases hc with
        | full hcap' => exact absurd hcap hcap'
        | rest ht =>
          cases hg
          exact ⟨false, by rw [ht], rfl⟩
    · rw [if_pos (by simpa using hcap), pure_eq_ok_iff]
      constructor
      · rintro ⟨rfl, rfl⟩
        exact ⟨.full hcap, s, .nil, rfl⟩
      · rintro ⟨hc, s', hg, rfl⟩
        cases hc <;> cases hg <;> exact ⟨rfl, rfl⟩
  | succ room ih =>
    rw [chain, Explode.triggersFor_number, ofExcept_bind_eq_ok_iff]
    constructor
    · rintro ⟨b, hb, hok⟩
      cases b with
      | false =>
        obtain ⟨rfl, rfl⟩ := pure_eq_ok_iff.1 hok
        exact ⟨.rest (Except.ok.inj hb), s, .nil, rfl⟩
      | true =>
        obtain ⟨w, _, ws', hw, hws, rfl⟩ := cons_eq_ok_iff.1 hok
        obtain ⟨s₁, hd, rfl⟩ := die_eq_ok_iff.1 hw
        obtain ⟨hc, s', hg, hT⟩ := ih.1 hws
        exact ⟨.next (Except.ok.inj hb) hc, s', .cons hd hg, hT⟩
    · rintro ⟨hc, s', hg, rfl⟩
      cases hc with
      | rest ht =>
        cases hg
        exact ⟨false, by rw [ht], rfl⟩
      | next ht hc =>
        cases hg with
        | cons hd hg =>
          have hw := (die_eq_ok_iff (d := d) (h := h)).2 ⟨_, hd, rfl⟩
          have hws := ih.2 ⟨hc, s', hg, rfl⟩
          exact ⟨true, by rw [ht], cons_eq_ok_iff.2 ⟨_, _, _, hw, hws, rfl⟩⟩

theorem extras_eq (e : Explode) (m v : Int) : extras e (.number m) v ⟨d, h, s⟩ =
    chain e (.number m) (if e.cap = 0 then s.horizon else e.cap) v ⟨d, h, s⟩ := rfl

theorem extras_of_ok {m v : Int} {ws : List Int}
    (hok : extras e (.number m) v ⟨d, h, s⟩ = .ok ws T) :
    e.Adds m v ws ∧ ∃ s', s.Gives m ws s' ∧ T = ⟨d, h, s'⟩ := by
  rw [extras_eq, chain_eq_ok_iff] at hok
  exact ⟨⟨_, fun hcap => if_neg hcap, hok.1⟩, hok.2⟩

/-- Explosions draw the values that the rolls add, and count them. -/
theorem explodeEach_of_ok {m : Int} {rolls rolls' : List Int}
    (hok : explodeEach e (.number m) rolls ⟨d, h, s⟩ = .ok rolls' T) :
    ∃ vs s', Explodes e m rolls vs rolls' ∧ s.Gives m vs s' ∧
      T = ⟨d, { h with exploded := h.exploded + vs.length }, s'⟩ := by
  induction rolls generalizing rolls' h s with
  | nil =>
    obtain ⟨rfl, rfl⟩ := pure_eq_ok_iff.1 hok
    exact ⟨[], s, .nil, .nil, rfl⟩
  | cons v rs ih =>
    obtain ⟨ws, _, hws, h₁⟩ := bind_eq_ok_iff.1 hok
    obtain ⟨ha, s₁, hg₁, rfl⟩ := extras_of_ok hws
    rw [update_bind] at h₁
    obtain ⟨rs', _, hrs, h₂⟩ := bind_eq_ok_iff.1 h₁
    obtain ⟨rfl, rfl⟩ := pure_eq_ok_iff.1 h₂
    obtain ⟨vs, s', he, hg₂, rfl⟩ := ih hrs
    refine ⟨ws ++ vs, s', .cons ha he, hg₁.append hg₂, ?_⟩
    rw [List.length_append, Nat.add_assoc]

end Play
end DiceRoller
