/-
# Rolls with a live engine

A live engine rolls every die that fits it, so a step of play that draws
such dice goes on: the first roll, the rerolls, and explosions too. A chain
without a cap comes to a lowest face before its room is used up
(`Source.Near.exists_chain`), and a lowest face ends it, unless the explosion is
unbounded.

What can still go wrong is a tag, whose numbers may be too long to be written.
They are numbers of the options, or they count dice, of which there are no more
than `Options.reach`. `Play.Leads` says how a step leads from hand to hand but for
that; it is proved of each modifier and goes over to all of them. So a roll
fails only if the dice have too many sides for the engine, or if there is a
number that is too long (`Options.rollTerm_of_live`).

Key definitions: `Explode.room`, `Options.reach`, `Options.TooLong`,
`Play.Leads`.
Key theorems: `Source.Near.exists_chain`, `Play.explodeEach_of_live`,
`Options.rollTerm_of_live`.
-/
import DiceRoller.Proofs.Hand.Stuck
import DiceRoller.Proofs.Hand.Worth
import DiceRoller.Proofs.Source.Live

namespace DiceRoller

/-! ### How many dice there can be -/

/-- The most dice that one die can add: as many as the cap allows, or, if there
is none, as the generator has states. -/
def Explode.room (e : Explode) : Nat := if e.cap = 0 then Engine.stateCount else e.cap

namespace Options

/-- The most dice that one die can come to, itself included. -/
def diceEach (o : Options) : Nat := 1 + o.explode.elim 0 Explode.room

/-- The most that the dice of a term can be worth. -/
def reach (o : Options) (t : DiceTerm) : Nat := t.number * o.diceEach * t.sides

/-- A number of the options, or one that the dice of the term can come to, may
not be written. -/
def TooLong (o : Options) (t : DiceTerm) : Prop :=
  o.tagNumbers.all Numeral.writable = false ∨ Numeral.writable (o.reach t) = false

variable {o : Options} {t : DiceTerm} {count : Nat}

theorem number_le (o : Options) (t : DiceTerm) : t.number ≤ t.number * o.diceEach :=
  Nat.le_mul_of_pos_right _ (Nat.le_add_right 1 _)

/-- There are never more dice than they can be worth. -/
theorem mul_diceEach_le_reach (o : Options) (t : DiceTerm) : t.number * o.diceEach ≤ o.reach t :=
  Nat.le_mul_of_pos_right _ (by have := t.two_le_sides; omega)

theorem TooLong.of_count (hle : count ≤ t.number * o.diceEach)
    (hw : Numeral.writable count = false) : o.TooLong t := by
  refine .inr (Bool.eq_false_iff.2 fun hreach => ?_)
  have hcount : (count : Int) ≤ o.reach t :=
    Int.ofNat_le.2 (hle.trans (o.mul_diceEach_le_reach t))
  exact Bool.false_ne_true (hw.symm.trans (writable_of_le (Int.natCast_nonneg _) hcount hreach))

theorem TooLong.of_note {numbers : List Int} (hnumbers : ∀ n ∈ numbers, n ∈ o.tagNumbers)
    (hle : count ≤ t.number * o.diceEach)
    (hw : numbers.all Numeral.writable = false ∨ Numeral.writable count = false) :
    o.TooLong t := by
  rcases hw with hw | hw
  · exact .inl (tagNumbers_unwritable hnumbers hw)
  · exact .of_count hle hw

end Options

/-! ### Steps of play -/

theorem Rerolls.length_le {lte : Datum} {rolls vs rolls' : List Int}
    (hr : Rerolls lte rolls vs rolls') : vs.length ≤ rolls.length := by
  induction hr with
  | nil => exact Nat.le_refl _
  | stay _ _ ih => exact ih.trans (Nat.le_add_right _ 1)
  | again _ _ ih => exact Nat.succ_le_succ ih

/-- A lowest face triggers only where the threshold is not above it. -/
theorem Explode.triggers_one {e : Explode} (hu : e.unbounded = false) (hcap : e.cap = 0)
    {sides : Nat} (htwo : 2 ≤ sides) : e.triggers sides 1 = false := by
  unfold unbounded at hu
  unfold triggers
  split at hu
  · simp
    omega
  · simpa [hcap] using hu

namespace Source

variable {s : Source} {sides n room : Nat} {e : Explode} {v : Int}

theorem Live.exists_rerolls (hs : s.Live) (htwo : 2 ≤ sides)
    (hfits : (sides : Int) ≤ Engine.highest) (lte : Int) (rolls : List Int) :
    ∃ vs rolls' s', Rerolls (.number lte) rolls vs rolls' ∧ s.Gives sides vs s' := by
  induction rolls generalizing s with
  | nil => exact ⟨[], [], s, .nil, .nil⟩
  | cons r rs ih =>
    by_cases hlow : r ≤ lte
    · obtain ⟨v, s₁, hd, hs₁⟩ := hs.draw htwo hfits
      obtain ⟨vs, rs', s', hr, hg⟩ := ih hs₁
      exact ⟨v :: vs, v :: rs', s', .again (by rw [Datum.atMost_number, decide_eq_true hlow]) hr,
        .cons hd hg⟩
    · obtain ⟨vs, rs', s', hr, hg⟩ := ih hs
      exact ⟨vs, r :: rs', s', .stay (by rw [Datum.atMost_number, decide_eq_false hlow]) hr, hg⟩

theorem Live.exists_chain (hs : s.Live) (htwo : 2 ≤ sides)
    (hfits : (sides : Int) ≤ Engine.highest) (hcap : e.cap ≠ 0) (room : Nat) (v : Int) :
    ∃ ws s', e.Chain sides room v ws ∧ s.Gives sides ws s' := by
  induction room generalizing s v with
  | zero => exact ⟨[], s, .full hcap, .nil⟩
  | succ room ih =>
    cases ht : e.triggers sides v with
    | false => exact ⟨[], s, .rest ht, .nil⟩
    | true =>
      obtain ⟨w, s₁, hd, hs₁⟩ := hs.draw htwo hfits
      obtain ⟨ws, s', hc, hg⟩ := ih hs₁ w
      exact ⟨w :: ws, s', .next ht hc, .cons hd hg⟩

/-- A chain that a lowest face ends is rolled, as there is room until one comes
up. -/
theorem Near.exists_chain (hone : e.triggers sides 1 = false) (hs : s.Near sides n)
    (hn : n ≤ room) (hroom : room ≤ Engine.stateCount) (htwo : 2 ≤ sides)
    (hfits : (sides : Int) ≤ Engine.highest) (v : Int) :
    ∃ ws s', e.Chain sides room v ws ∧ s.Gives sides ws s' := by
  induction room generalizing s n v with
  | zero =>
    obtain rfl := Nat.le_zero.1 hn
    obtain ⟨_, _, -, -, hnear⟩ := hs
    exact absurd hnear Engine.not_near_zero
  | succ room ih =>
    cases ht : e.triggers sides v with
    | false => exact ⟨[], s, .rest ht, .nil⟩
    | true =>
      obtain ⟨w, s₁, hd, rfl | ⟨m, hm, hnear⟩⟩ := hs.draw (hn.trans hroom) htwo hfits
      · exact ⟨[1], s₁, .next ht (.rest hone), .cons hd .nil⟩
      · obtain ⟨ws, s', hc, hg⟩ := ih hnear (by omega) (by omega) w
        exact ⟨w :: ws, s', .next ht hc, .cons hd hg⟩

theorem Live.exists_extras (hs : s.Live) (hu : e.unbounded = false) (htwo : 2 ≤ sides)
    (hfits : (sides : Int) ≤ Engine.highest) (v : Int) :
    ∃ ws s', e.Chain sides e.room v ws ∧ s.Gives sides ws s' := by
  unfold Explode.room
  by_cases hcap : e.cap = 0
  · rw [if_pos hcap]
    exact (hs.near sides).exists_chain (Explode.triggers_one hu hcap htwo) steps_le_stateCount
      (Nat.le_refl _) htwo hfits v
  · rw [if_neg hcap]
    exact hs.exists_chain htwo hfits hcap e.cap v

end Source

namespace Play

variable {d : Draft} {h : Hand} {s : Source} {sides : Nat} {e : Explode}

theorem explodeEach_of_live (hs : s.Live) (hu : e.unbounded = false) (htwo : 2 ≤ sides)
    (hfits : (sides : Int) ≤ Engine.highest) (rolls : List Int) :
    ∃ (vs rolls' : List Int) (s' : Source), explodeEach e (.number sides) rolls ⟨d, h, s⟩ =
        .ok rolls' ⟨d, { h with exploded := h.exploded + vs.length }, s'⟩ ∧ s'.Live ∧
      vs.length ≤ rolls.length * e.room := by
  induction rolls generalizing h s with
  | nil => exact ⟨[], [], s, rfl, hs, Nat.zero_le _⟩
  | cons v rs ih =>
    obtain ⟨ws, s₁, hc, hg⟩ := hs.exists_extras hu htwo hfits v
    have hs₁ := hs.of_gives hg
    obtain ⟨vs, rs', s', hrest, hs', hle⟩ := ih (h := { h with exploded := h.exploded + ws.length }) hs₁
    have hroom : (if e.cap = 0 then s.horizon else e.cap) = e.room := by
      rw [hs.horizon_eq, Explode.room]
    have hextras : extras e (.number sides) v ⟨d, h, s⟩ = .ok ws ⟨d, h, s₁⟩ := by
      rw [extras_eq, hroom]
      exact chain_eq_ok_iff.2 ⟨hc, s₁, hg, rfl⟩
    refine ⟨ws ++ vs, v :: (ws ++ rs'), s', ?_, hs', ?_⟩
    · rw [explodeEach, bind_of_ok hextras, update_bind, bind_of_ok hrest, List.length_append,
        ← Nat.add_assoc]
      rfl
    · have hlength := hc.length_le
      rw [List.length_append, List.length_cons, Nat.succ_mul]
      omega

/-- With a live source the step goes on, from a hand with the first property to one
with the second; or it fails since a number is too long, which happens only under
the condition. -/
def Leads (t : DiceTerm) (c : Prop) (x : Play Unit) (P Q : Hand → Prop) : Prop :=
  ∀ h s, P h → s.Live →
    (∃ h' s', x ⟨t.draft, h, s⟩ = .ok () ⟨t.draft, h', s'⟩ ∧ s'.Live ∧ Q h') ∨
      ∃ T, x ⟨t.draft, h, s⟩ = .error .numeralTooLongToWrite T ∧ c

namespace Leads

variable {t : DiceTerm} {c : Prop} {x : Play Unit} {P Q R : Hand → Prop}

protected theorem pure : Leads t c (pure ()) P P := fun h s hP hs => .inl ⟨h, s, rfl, hs, hP⟩

theorem bind {y : Play Unit} (hx : Leads t c x P Q) (hy : Leads t c y Q R) :
    Leads t c (x >>= fun _ => y) P R := by
  intro h s hP hs
  rcases hx h s hP hs with ⟨h₁, s₁, hok, hs₁, hQ⟩ | ⟨T, herr, hc⟩
  · rw [bind_of_ok hok]
    exact hy h₁ s₁ hQ hs₁
  · rw [bind_of_error herr]
    exact .inr ⟨T, rfl, hc⟩

/-- The first of some modifiers, if it is there, leads on to the others. -/
theorem applyAll_cons {m? : Option Modifier} {ms : List (Option Modifier)}
    (hm : ∀ m, m? = some m → Leads t c m.apply P Q) (hnone : m? = none → ∀ h, P h → Q h)
    (hms : Leads t c (Modifier.applyAll ms.reduceOption) Q R) :
    Leads t c (Modifier.applyAll (m? :: ms).reduceOption) P R := by
  cases m? with
  | none => exact fun h s hP hs => hms h s (hnone rfl h hP) hs
  | some m => exact (hm m rfl).bind hms

end Leads

end Play

/-! ### Modifiers -/

/-- The dice have been rolled, and nothing else has been done. -/
structure Hand.Fresh (t : DiceTerm) (h : Hand) : Prop where
  length_rolls : h.rolls.length = t.number
  rerolled : h.rerolled = 0
  exploded : h.exploded = 0

/-- There is one roll for each die of the term. -/
structure Hand.Unexploded (t : DiceTerm) (h : Hand) : Prop where
  length_rolls : h.rolls.length = t.number
  exploded : h.exploded = 0

/-- No die has added more dice than there is room for. -/
def Hand.Within (o : Options) (t : DiceTerm) (h : Hand) : Prop :=
  t.number + h.exploded ≤ t.number * o.diceEach

namespace Modifier

open Play

variable {o : Options} {t : DiceTerm}

theorem note_cases (T : Table) (count : Nat) (key : Int) (numbers : List Int) (text : String) :
    (∃ tags, (if count = 0 then pure () else leaveTag key (numbers ++ [(count : Int)]) text :
        Play Unit) T = .ok () { T with hand := { T.hand with tags } }) ∨
      ((if count = 0 then pure () else leaveTag key (numbers ++ [(count : Int)]) text :
          Play Unit) T = .error .numeralTooLongToWrite T ∧
        (numbers.all Numeral.writable = false ∨ Numeral.writable count = false)) := by
  cases hnote : (if count = 0 then pure () else leaveTag key (numbers ++ [(count : Int)]) text :
    Play Unit) T with
  | ok u U =>
    obtain ⟨h', hn, rfl⟩ := note_eq_ok_iff.1 hnote
    obtain ⟨tags, rfl⟩ := hn.eq_tags
    exact .inl ⟨tags, rfl⟩
  | error f U =>
    obtain ⟨rfl, -, hw, rfl⟩ := note_of_error hnote
    exact .inr ⟨rfl, hw⟩

theorem initialRoll_leads (hfits : (t.sides : Int) ≤ Engine.highest) :
    Leads t (o.TooLong t) (o.initialRoll t).apply (· = {}) (Hand.Fresh t) := by
  rintro h s rfl hs
  have hdice : ∀ (h : Hand) (n : Nat), ∃ vs s', vs.length = n ∧
      dice n ⟨t.draft, h, s⟩ = .ok vs ⟨t.draft, h, s'⟩ ∧ s'.Live := by
    intro h n
    obtain ⟨vs, s', hl, hg⟩ := hs.exists_gives t.two_le_sides hfits n
    exact ⟨vs, s', hl, dice_eq_ok_iff.2 ⟨hl, s', hg, rfl⟩, hs.of_gives hg⟩
  left
  rcases o.initialRoll_cases t with ⟨-, hm⟩ | ⟨highest, times, -, hnum, htimes, hm⟩
  · obtain ⟨vs, s', hl, hok, hs'⟩ := hdice {} t.number
    rw [hm, apply, applyRoll, bind_of_ok number_draft, bind_of_ok hok]
    exact ⟨_, s', rfl, hs', hl, rfl, rfl⟩
  · obtain ⟨vs, s', hl, hok, hs'⟩ := hdice {} times
    have hne : vs ≠ [] := by
      rintro rfl
      rw [List.length_nil] at hl
      omega
    obtain ⟨v, hbest⟩ := exists_best? (Datum.truth highest).holds hne
    rw [hm, apply, applyPick, timesOf_bind, bind_of_ok hok, update_bind, hbest]
    exact ⟨_, s', rfl, hs', hnum.symm, rfl, rfl⟩

theorem reroll_leads {r : Reroll} (hr : o.reroll = some r)
    (hfits : (t.sides : Int) ≤ Engine.highest) :
    Leads t (o.TooLong t) (reroll (.number r.lte)).apply (Hand.Fresh t) (Hand.Unexploded t) := by
  intro h s hfresh hs
  obtain ⟨vs, rolls, s', hrr, hg⟩ := hs.exists_rerolls t.two_le_sides hfits r.lte h.rolls
  have hok : rerollEach (.number r.lte) h.rolls ⟨t.draft, h, s⟩ =
      .ok rolls ⟨t.draft, { h with rerolled := h.rerolled + vs.length }, s'⟩ :=
    rerollEach_eq_ok_iff.2 ⟨vs, s', hrr, hg, rfl⟩
  rw [apply, applyReroll, hand_bind, bind_of_ok hok, update_bind, hand_bind]
  rcases note_cases _ _ _ _ _ with ⟨tags, hnote⟩ | ⟨hnote, hlong⟩
  · refine .inl ⟨_, s', hnote, hs.of_gives hg, ?_, hfresh.exploded⟩
    exact hrr.length_eq.trans hfresh.length_rolls
  · refine .inr ⟨_, hnote, Options.TooLong.of_note (fun n hn => ?_) ?_ hlong⟩
    · obtain rfl := List.mem_singleton.1 hn
      simp [Options.tagNumbers, hr]
    · have hle := hrr.length_le
      rw [hfresh.length_rolls] at hle
      show h.rerolled + vs.length ≤ _
      rw [hfresh.rerolled, Nat.zero_add]
      exact hle.trans (o.number_le t)

theorem explode_leads {e : Explode} (he : o.explode = some e) (hu : e.unbounded = false)
    (hfits : (t.sides : Int) ≤ Engine.highest) :
    Leads t (o.TooLong t) (explode (some e)).apply (Hand.Unexploded t) (Hand.Within o t) := by
  intro h s hrolled hs
  obtain ⟨vs, rolls, s', hok, hs', hle⟩ :=
    explodeEach_of_live (d := t.draft) (h := h) hs hu t.two_le_sides hfits h.rolls
  have hwithin : t.number + (h.exploded + vs.length) ≤ t.number * o.diceEach := by
    rw [hrolled.length_rolls] at hle
    rw [hrolled.exploded, Nat.zero_add, Options.diceEach, he, Nat.mul_add, Nat.mul_one]
    exact Nat.add_le_add_left hle _
  rw [apply, applyExplode, hand_bind, bind_of_ok sides_draft, chosen_bind, bind_of_ok hok,
    update_bind, hand_bind]
  rcases note_cases _ _ _ _ _ with ⟨tags, hnote⟩ | ⟨hnote, hlong⟩
  · exact .inl ⟨_, s', hnote, hs', hwithin⟩
  · refine .inr ⟨_, hnote, Options.TooLong.of_note (fun n hn => ?_) ?_ hlong⟩
    · simp [Options.tagNumbers, he, hn]
    · exact (Nat.le_add_left _ _).trans hwithin

theorem drop_leads {kind : Drop} {count : Nat}
    (hm : drop kind (.number count) ∈ o.laterModifiers t) :
    Leads t (o.TooLong t) (drop kind (.number count)).apply (Hand.Within o t)
      (Hand.Within o t) := by
  intro h s hwithin hs
  have hasked : Play.ofExcept (dropCount (.number count)) ⟨t.draft, h, s⟩ =
      .ok (count : Int) ⟨t.draft, h, s⟩ := rfl
  rw [apply, applyDrop_eq, bind_of_ok hasked, update_bind]
  cases htag : kind.tag? with
  | none => exact .inl ⟨_, s, rfl, hs, hwithin⟩
  | some tag =>
    have htag' : kind.tag? ≠ none := by
      rw [htag]
      exact Option.some_ne_none _
    cases hleave : leaveTag tag.1 (Datum.number count).numbers
      (tag.2 ++ (Datum.number count).plain) ⟨t.draft, h.drop count kind.isHigh, s⟩ with
    | ok u U =>
      obtain ⟨-, rfl⟩ := leaveTag_eq_ok_iff.1 hleave
      exact .inl ⟨_, s, hleave, hs, hwithin⟩
    | error f U =>
      obtain ⟨rfl, hw, rfl⟩ := leaveTag_eq_error_iff.1 hleave
      refine .inr ⟨_, hleave, .inl (Options.tagNumbers_unwritable (fun n hn => ?_) hw)⟩
      obtain rfl := List.mem_singleton.1 hn
      exact Options.mem_tagNumbers_of_drop hm htag'

/-- The first die of the first roll cannot be rolled if it has too many sides. -/
theorem initialRoll_of_wide {s : Source} (hs : s.Live)
    (hwide : Engine.highest < (t.sides : Int)) :
    ∃ T, (o.initialRoll t).apply ⟨t.draft, {}, s⟩ = .error (.badRange .highTooLarge) T := by
  have hdice : ∀ n : Nat, n ≠ 0 →
      dice n ⟨t.draft, {}, s⟩ = .error (.badRange .highTooLarge) ⟨t.draft, {}, s⟩ := by
    intro n hn
    obtain ⟨n, rfl⟩ := Nat.exists_eq_succ_of_ne_zero hn
    have hdie : ownDie ⟨t.draft, {}, s⟩ = .error (.badRange .highTooLarge) ⟨t.draft, {}, s⟩ := by
      rw [ownDie, bind_of_ok sides_draft, die, Source.roll_number, hs.draw_of_wide hwide]
    rw [dice, bind_of_error hdie]
  rcases o.initialRoll_cases t with ⟨-, hm⟩ | ⟨highest, times, -, -, htimes, hm⟩
  · have hn : t.number ≠ 0 := Nat.one_le_iff_ne_zero.1 t.one_le_number
    rw [hm, apply, applyRoll, bind_of_ok number_draft, bind_of_error (hdice _ hn)]
    exact ⟨_, rfl⟩
  · rw [hm, apply, applyPick, timesOf_bind, bind_of_error (hdice times (by omega))]
    exact ⟨_, rfl⟩

/-- The modifiers of a term lead from no hand to one that has been rolled. -/
theorem modifiersFor_leads (hu : ∀ e, o.explode = some e → e.unbounded = false)
    (hfits : (t.sides : Int) ≤ Engine.highest) :
    Leads t (o.TooLong t) (applyAll (o.modifiersFor t)) (· = {}) (Hand.Within o t) := by
  have hdrop : ∀ (m? : Option Modifier), m? ∈ [Options.dropOf .inTerm t.drop,
      o.dropLowest.bind fun d => Options.dropOf .lowest d.count,
      o.dropHighest.bind fun d => Options.dropOf .highest d.count] → ∀ m, m? = some m →
      Leads t (o.TooLong t) m.apply (Hand.Within o t) (Hand.Within o t) := by
    rintro _ hm? m rfl
    have hm : m ∈ o.droppingModifiers t := List.reduceOption_mem_iff.2 hm?
    obtain ⟨kind, count, rfl⟩ := Options.mem_droppingModifiers hm
    exact drop_leads (List.mem_append_right _ hm)
  have hsame : ∀ {m? : Option Modifier} {P : Hand → Prop}, m? = none → ∀ h, P h → P h :=
    fun _ _ hP => hP
  rw [Options.modifiersFor_eq_cons, Options.laterModifiers, Options.droppingModifiers,
    ← List.reduceOption_append]
  refine (initialRoll_leads hfits).bind ?_
  refine .applyAll_cons (Q := Hand.Unexploded t) (fun m hm => ?_) (fun _ h hfresh => ?_) ?_
  · obtain ⟨r, hr, rfl⟩ := Option.map_eq_some_iff.1 hm
    exact reroll_leads hr hfits
  · exact ⟨hfresh.length_rolls, hfresh.exploded⟩
  refine .applyAll_cons (Q := Hand.Within o t) (fun m hm => ?_) (fun _ h hrolled => ?_) ?_
  · obtain ⟨e, he, rfl⟩ := Option.map_eq_some_iff.1 hm
    exact explode_leads he (hu e he) hfits
  · rw [Hand.Within, hrolled.exploded, Nat.add_zero]
    exact o.number_le t
  refine .applyAll_cons (hdrop _ ?_) hsame (.applyAll_cons (hdrop _ ?_) hsame
    (.applyAll_cons (hdrop _ ?_) hsame .pure))
  all_goals simp

end Modifier

namespace Options

variable {o : Options} {t : DiceTerm} {s : Source}

/-- With a live source dice are rolled, unless they have too many sides, or a number
is too long. -/
theorem rollTerm_of_live (hs : s.Live) (hu : ∀ e, o.explode = some e → e.unbounded = false) :
    (∃ h s', o.rollTerm t s = .ok h s' ∧ s'.Live ∧ h.Within o t) ∨
      ∃ f s', o.rollTerm t s = .error f s' ∧
        (f = .badRange .highTooLarge ∧ Engine.highest < (t.sides : Int) ∨
          f = .numeralTooLongToWrite ∧ o.TooLong t) := by
  by_cases hfits : (t.sides : Int) ≤ Engine.highest
  · rcases Modifier.modifiersFor_leads hu hfits {} s rfl hs with
      ⟨h, s', hok, hs', hwithin⟩ | ⟨T, herr, hlong⟩
    · exact .inl ⟨h, s', rollTerm_eq_ok_iff.2 hok, hs', hwithin⟩
    · refine .inr ⟨_, T.source, ?_, .inr ⟨rfl, hlong⟩⟩
      rw [rollTerm, herr]
  · have hwide := Int.lt_of_not_ge hfits
    obtain ⟨T, herr⟩ := Modifier.initialRoll_of_wide (o := o) hs hwide
    refine .inr ⟨_, T.source, ?_, .inl ⟨rfl, hwide⟩⟩
    have hall : Modifier.applyAll (o.modifiersFor t) ⟨t.draft, {}, s⟩ =
        .error (.badRange .highTooLarge) T := by
      rw [modifiersFor_eq_cons, Modifier.applyAll, bind_of_error herr]
    rw [rollTerm, hall]

theorem value_le_reach {h : Hand} {s' : Source} (hok : o.rollTerm t s = .ok h s')
    (hwithin : h.Within o t) : 0 ≤ h.value ∧ h.value ≤ o.reach t := by
  obtain ⟨vs, hsteps, hg⟩ := rollTerm_of_ok hok
  have hkept : ∀ v ∈ h.kept, 1 ≤ v ∧ v ≤ (t.sides : Int) := fun v hv =>
    hg.mem_range v (mem_of_mem_rolls hsteps (h.kept_sublist.subset hv))
  obtain ⟨hlow, hhigh⟩ := sum_bounds hkept
  rw [h.value_eq_sum]
  have hlength : h.kept.length ≤ t.number * o.diceEach := by
    refine h.kept_sublist.length_le.trans ?_
    rw [(balanced_of_steps hsteps).length_rolls]
    exact hwithin
  have hmul : ((h.kept.length * t.sides : Nat) : Int) ≤ o.reach t :=
    Int.ofNat_le.2 (Nat.mul_le_mul_right _ hlength)
  rw [Int.natCast_mul] at hmul
  omega

end Options
end DiceRoller
