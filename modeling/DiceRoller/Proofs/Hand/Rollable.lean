/-
# When a term can be rolled at all

Rolling a term fails only where the values run out or do not fit, where a chain
never ends, or where a tag holds a number that may not be written. A script can
avoid the first, and without an unbounded explosion there is no such chain. Some
tags, however, are left whatever is rolled: those of drops by options, that of a
reroll from one up, and that of an explosion which every value triggers.
`Options.TagsWritable` says that those may be written.

The first modifiers can be applied so that the dice show whatever rolls are
wanted (`Modifier.exists_initialStep`, `Modifier.exists_rerollStep`). Where the
tags may be written a script of ones is enough (`Options.rollTerm_ones`): of all
the values it triggers the least. And no source helps where a tag may not be written
(`Options.tagsWritable_of_ok`), as long as the dice do not have more sides than
may be written themselves.

Key definitions: `Options.TagsWritable`, `Modifier.CanPlay`.
Key theorems: `Options.rollTerm_ones`, `Options.tagsWritable_of_ok`.
-/
import DiceRoller.Proofs.Hand.Balance
import DiceRoller.Proofs.Text.Writable

namespace DiceRoller

/-- The tags that are left whatever is rolled for the term may be written. -/
structure Options.TagsWritable (o : Options) (t : DiceTerm) : Prop where
  dropLowest : ∀ d, o.dropLowest = some d → Numeral.writable d.count = true
  dropHighest : ∀ d, o.dropHighest = some d → Numeral.writable d.count = true
  /-- Every roll is rerolled if `lte` is too large to be written. -/
  reroll : ∀ r, o.reroll = some r → 1 ≤ r.lte → Numeral.writable r.lte = true
  /-- An explosion from one down adds all the dice that the cap lets it add. -/
  explode : ∀ e n, o.explode = some e → e.threshold = .atLeast n → n ≤ 1 → e.cap ≠ 0 →
    Numeral.writable n = true ∧ Numeral.writable ((t.number * e.cap : Nat) : Int) = true

/-! ### Rolls that are wanted -/

theorem rerolls_self (lte : Int) (rolls : List Int) :
    Rerolls (.number lte) rolls (rolls.filter (· ≤ lte)) rolls := by
  induction rolls with
  | nil => exact .nil
  | cons r rs ih =>
    by_cases h : r ≤ lte
    · rw [List.filter_cons_of_pos (by simpa using h)]
      exact .again (by rw [Datum.atMost_number, decide_eq_true h]) ih
    · rw [List.filter_cons_of_neg (by simpa using h)]
      exact .stay (by rw [Datum.atMost_number, decide_eq_false h]) ih

namespace Modifier

variable {o : Options} {t : DiceTerm} {h : Hand} {vs : List Int}

theorem exists_initialStep (o : Options) {rolls : List Int} (hl : rolls.length = t.number) :
    ∃ vs h, Step t (o.initialRoll t) {} vs h ∧ h.rolls = rolls ∧ h.rerolled = 0 ∧
      h.exploded = 0 ∧ ∀ v ∈ vs, v ∈ rolls := by
  rcases o.initialRoll_cases t with ⟨-, hm⟩ | ⟨highest, times, -, hnum, htimes, hm⟩
  · rw [hm]
    exact ⟨rolls, _, .roll hl, rfl, rfl, rfl, fun v hv => hv⟩
  · rw [hm]
    obtain ⟨v, rfl⟩ := List.length_eq_one_iff.1 (hl.trans hnum)
    have hbest : best? (Datum.truth highest).holds (List.replicate times v) = some v := by
      cases highest with
      | true => exact List.max?_replicate_of_pos (Nat.lt_of_succ_lt htimes)
      | false => exact List.min?_replicate_of_pos (Nat.lt_of_succ_lt htimes)
    refine ⟨_, _, .pick rfl List.length_replicate hbest, rfl, rfl, rfl, fun w hw => ?_⟩
    rw [(List.mem_replicate.1 hw).2]
    exact List.mem_cons_self

theorem Step.exists_reroll {lte : Datum} {rolls : List Int} (hr : Rerolls lte h.rolls vs rolls)
    (hw : h.rerolled + vs.length ≠ 0 →
      (lte.numbers ++ [((h.rerolled + vs.length : Nat) : Int)]).all Numeral.writable = true) :
    ∃ tags, Step t (.reroll lte) h vs
      { h with rolls, rerolled := h.rerolled + vs.length, tags } := by
  by_cases h0 : h.rerolled + vs.length = 0
  · exact ⟨h.tags, .reroll hr (.never h0)⟩
  · exact ⟨_, .reroll hr (.tagged h0 (hw h0))⟩

/-- Rolls can be rerolled so that they show the same again, if the tag may be
written. -/
theorem exists_rerollStep {lte : Int} (hrr : h.rerolled = 0)
    (hw : ∀ r ∈ h.rolls, r ≤ lte →
      Numeral.writable lte = true ∧ Numeral.writable h.rolls.length = true) :
    ∃ vs h', Step t (.reroll (.number lte)) h vs h' ∧ h'.rolls = h.rolls ∧
      h'.exploded = h.exploded ∧ ∀ v ∈ vs, v ∈ h.rolls := by
  have hmem : ∀ v ∈ h.rolls.filter (· ≤ lte), v ∈ h.rolls ∧ v ≤ lte := fun v hv => by
    simpa using List.mem_filter.1 hv
  obtain ⟨tags, hs⟩ := Step.exists_reroll (t := t) (rerolls_self lte h.rolls) (by
    rw [hrr, Nat.zero_add]
    intro hpos
    obtain ⟨r, hr⟩ := List.exists_mem_of_ne_nil _ (mt List.length_eq_zero_iff.2 hpos)
    obtain ⟨hlte, hlength⟩ := hw r (hmem r hr).1 (hmem r hr).2
    have hle : (((h.rolls.filter (· ≤ lte)).length : Nat) : Int) ≤ h.rolls.length :=
      Int.ofNat_le.2 (List.length_filter_le _ _)
    exact all_writable_append (all_writable_singleton hlte)
      (writable_of_le (Int.natCast_nonneg _) hle hlength))
  exact ⟨_, _, hs, rfl, rfl, fun v hv => (hmem v hv).1⟩

end Modifier

/-! ### A script of ones -/

namespace Explode

variable {e : Explode} {sides : Int}

/-- A one that triggers is followed by as many ones as the cap lets it have. -/
theorem chain_ones (ht : e.triggers sides 1 = true) (hcap : e.cap ≠ 0) (room : Nat) :
    e.Chain sides room 1 (List.replicate room 1) := by
  induction room with
  | zero => exact .full hcap
  | succ room ih => exact .next ht ih

/-- How many dice a one adds. -/
def onesAdded (e : Explode) (sides : Int) : Nat := if e.triggers sides 1 then e.cap else 0

theorem adds_ones (hcap : e.triggers sides 1 = true → e.cap ≠ 0) :
    e.Adds sides 1 (List.replicate (e.onesAdded sides) 1) := by
  refine ⟨e.cap, fun _ => rfl, ?_⟩
  unfold onesAdded
  by_cases ht : e.triggers sides 1 = true
  · rw [if_pos ht]
    exact chain_ones ht (hcap ht) e.cap
  · rw [if_neg ht]
    exact .rest (Bool.eq_false_iff.2 ht)

theorem explodes_ones (hcap : e.triggers sides 1 = true → e.cap ≠ 0) (n : Nat) :
    ∃ rolls, Explodes e sides (List.replicate n 1) (List.replicate (n * e.onesAdded sides) 1)
      rolls := by
  induction n with
  | zero =>
    rw [Nat.zero_mul]
    exact ⟨[], .nil⟩
  | succ n ih =>
    obtain ⟨rolls, hr⟩ := ih
    have hcons := Explodes.cons (adds_ones hcap) hr
    rw [List.replicate_append_replicate, Nat.add_comm, ← Nat.succ_mul] at hcons
    exact ⟨_, hcons⟩

end Explode

namespace Modifier

variable {o : Options} {t : DiceTerm} {m : Modifier} {ms : List Modifier} {h h₁ : Hand}
  {vs : List Int}

/-- The modifiers can be applied to the hand if every die shows a one. -/
def CanPlay (t : DiceTerm) (ms : List Modifier) (h : Hand) : Prop :=
  ∃ n h', Steps t ms h (List.replicate n 1) h'

theorem CanPlay.cons (hs : Step t m h vs h₁) (hvs : ∀ v ∈ vs, v = 1) (hms : CanPlay t ms h₁) :
    CanPlay t (m :: ms) h := by
  obtain ⟨n, h', hms⟩ := hms
  have hcons := Steps.cons hs hms
  rw [List.eq_replicate_of_mem hvs, List.replicate_append_replicate] at hcons
  exact ⟨vs.length + n, h', hcons⟩

theorem CanPlay.cons_drop {kind : Drop} {count : Nat}
    (hw : kind.tag? = none ∨ Numeral.writable count = true) (hms : ∀ h, CanPlay t ms h) (h : Hand) :
    CanPlay t (.drop kind (.number count) :: ms) h := by
  cases htag : kind.tag? with
  | none => exact CanPlay.cons (.drop rfl htag) nofun (hms _)
  | some tag =>
    have hw : Numeral.writable count = true := by
      rcases hw with hw | hw
      · rw [htag] at hw
        cases hw
      · exact hw
    have hall : (Datum.number count).numbers.all Numeral.writable = true :=
      all_writable_singleton hw
    exact CanPlay.cons (.dropTagged rfl htag hall) nofun (hms _)

theorem Step.exists_explode {e : Explode} {rolls : List Int}
    (he : Explodes e t.sides h.rolls vs rolls)
    (hw : h.exploded + vs.length ≠ 0 →
      (e.threshold.numbers ++ [((h.exploded + vs.length : Nat) : Int)]).all Numeral.writable =
        true) :
    ∃ tags, Step t (.explode (some e)) h vs
      { h with rolls, exploded := h.exploded + vs.length, tags } := by
  by_cases h0 : h.exploded + vs.length = 0
  · exact ⟨h.tags, .explode he (.never h0)⟩
  · exact ⟨_, .explode he (.tagged h0 (hw h0))⟩

theorem exists_explodeStep {e : Explode} {n : Nat} (hrolls : h.rolls = List.replicate n 1)
    (hexp : h.exploded = 0) (hcap : e.triggers t.sides 1 = true → e.cap ≠ 0)
    (hw : e.triggers t.sides 1 = true → e.threshold.numbers.all Numeral.writable = true ∧
      Numeral.writable ((n * e.cap : Nat) : Int) = true) :
    ∃ k h', Step t (.explode (some e)) h (List.replicate k 1) h' := by
  obtain ⟨rolls, he⟩ := Explode.explodes_ones hcap n
  rw [← hrolls] at he
  obtain ⟨tags, hs⟩ := Step.exists_explode he (by
    rw [hexp, List.length_replicate, Nat.zero_add, Explode.onesAdded]
    intro hpos
    by_cases ht : e.triggers t.sides 1 = true
    · rw [if_pos ht]
      exact all_writable_append (hw ht).1 (hw ht).2
    · rw [if_neg ht] at hpos
      exact absurd rfl hpos)
  exact ⟨_, _, hs⟩

end Modifier

namespace Options

open Modifier

variable {o : Options} {t : DiceTerm} {h : Hand}

theorem canPlay_drop {part : Option DropCount} (kind : Drop) (ms : List (Option Modifier))
    (hw : ∀ d, part = some d → Numeral.writable d.count = true)
    (hms : ∀ h, CanPlay t ms.reduceOption h) (h : Hand) :
    CanPlay t ((part.bind fun d => dropOf kind d.count) :: ms).reduceOption h := by
  cases part with
  | none => exact hms h
  | some d =>
    show CanPlay t (dropOf kind d.count :: ms).reduceOption h
    unfold dropOf
    split
    · exact hms h
    · exact CanPlay.cons_drop (.inr (hw d rfl)) hms h

theorem canPlay_drops (hw : o.TagsWritable t) (h : Hand) : CanPlay t (o.droppingModifiers t) h := by
  have hnil : ∀ h, CanPlay t [] h := fun h => ⟨0, h, .nil⟩
  have hrest := canPlay_drop .lowest _ hw.dropLowest
    (canPlay_drop .highest [] hw.dropHighest hnil)
  rw [droppingModifiers]
  unfold dropOf
  split
  · exact hrest h
  · exact CanPlay.cons_drop (.inl rfl) hrest h

/-- An explosion that a one triggers starts from one down. -/
theorem exists_atLeast {e : Explode} (ht : e.triggers t.sides 1 = true) :
    ∃ n, e.threshold = .atLeast n ∧ n ≤ 1 := by
  have hsides := t.two_le_sides
  unfold Explode.triggers at ht
  split at ht
  · rw [decide_eq_true_eq] at ht
    omega
  · next n hn => exact ⟨n, hn, of_decide_eq_true ht⟩

theorem canPlay_explode (hw : o.TagsWritable t)
    (hu : ∀ e, o.explode = some e → e.unbounded = false)
    (hrolls : h.rolls = List.replicate t.number 1) (hexp : h.exploded = 0) :
    CanPlay t ([o.explode.map fun e => .explode (some e)].reduceOption ++ o.droppingModifiers t)
      h := by
  cases he : o.explode with
  | none => exact canPlay_drops hw h
  | some e =>
    have hcap : e.triggers t.sides 1 = true → e.cap ≠ 0 := by
      intro ht h0
      obtain ⟨n, hn, hle⟩ := exists_atLeast ht
      have hunb := hu e he
      rw [Explode.unbounded, hn] at hunb
      simp [h0, hle] at hunb
    obtain ⟨k, h', hs⟩ := exists_explodeStep hrolls hexp hcap (by
      intro ht
      obtain ⟨n, hn, hle⟩ := exists_atLeast ht
      obtain ⟨hn', hcount⟩ := hw.explode e n he hn hle (hcap ht)
      rw [hn]
      exact ⟨all_writable_singleton hn', hcount⟩)
    exact CanPlay.cons hs (fun v hv => (List.mem_replicate.1 hv).2) (canPlay_drops hw h')

/-- Without an unbounded explosion, ones are enough to roll a term whose tags
may be written. A reroll of ones counts all dice. -/
theorem canPlay_modifiersFor (hw : o.TagsWritable t)
    (hn : ∀ r, o.reroll = some r → 1 ≤ r.lte → Numeral.writable t.number = true)
    (hu : ∀ e, o.explode = some e → e.unbounded = false) : CanPlay t (o.modifiersFor t) {} := by
  have hones : ∀ v ∈ List.replicate t.number (1 : Int), v = 1 := fun v hv =>
    (List.mem_replicate.1 hv).2
  obtain ⟨vs, h, hfirst, hrolls, hrr, hexp, hvs⟩ :=
    exists_initialStep o (t := t) (List.length_replicate (a := (1 : Int)))
  rw [modifiersFor_eq]
  refine CanPlay.cons hfirst (fun v hv => hones v (hvs v hv)) ?_
  cases hr : o.reroll with
  | none => exact canPlay_explode hw hu hrolls hexp
  | some r =>
    have hlength : h.rolls.length = t.number := by rw [hrolls, List.length_replicate]
    have hlow : ∀ v ∈ h.rolls, v ≤ r.lte →
        Numeral.writable r.lte = true ∧ Numeral.writable h.rolls.length = true := by
      intro v hv hle
      rw [hrolls] at hv
      rw [hones v hv] at hle
      rw [hlength]
      exact ⟨hw.reroll r hr hle, hn r hr hle⟩
    obtain ⟨vs', h', hs, hrolls', hexp', hvs'⟩ := exists_rerollStep (t := t) hrr hlow
    have hlater := canPlay_explode hw hu (hrolls'.trans hrolls) (hexp'.trans hexp)
    exact CanPlay.cons hs (fun v hv => hones v (by rw [← hrolls]; exact hvs' v hv)) hlater

end Options

/-! ### Tags that are left whatever is rolled -/

theorem Rerolls.length_eq_of_le {lte : Int} {rolls vs rolls' : List Int}
    (hr : Rerolls (.number lte) rolls vs rolls') (hle : ∀ r ∈ rolls, r ≤ lte) :
    vs.length = rolls.length := by
  induction hr with
  | nil => rfl
  | stay hlow _ _ =>
    have hr := hle _ List.mem_cons_self
    rw [Datum.atMost_number, decide_eq_true hr] at hlow
    cases hlow
  | again _ _ ih =>
    rw [List.length_cons, List.length_cons, ih fun r hr => hle r (List.mem_cons_of_mem _ hr)]

section Explode

variable {e : Explode} {sides n : Int}

/-- A chain that every value triggers takes all the room there is. -/
theorem Explode.Chain.length_eq {room : Nat} {v : Int} {ws : List Int}
    (hc : e.Chain sides room v ws) (he : ∀ w, 1 ≤ w → e.triggers sides w = true) (hv : 1 ≤ v)
    (hws : ∀ w ∈ ws, 1 ≤ w) : ws.length = room := by
  induction hc with
  | rest ht =>
    rw [he _ hv] at ht
    cases ht
  | full => rfl
  | next _ _ ih =>
    have hw := hws _ List.mem_cons_self
    rw [List.length_cons, ih hw fun w hw => hws w (List.mem_cons_of_mem _ hw)]

theorem Explodes.length_eq_mul {rolls vs rolls' : List Int} (hx : Explodes e sides rolls vs rolls')
    (he : ∀ w, 1 ≤ w → e.triggers sides w = true) (hcap : e.cap ≠ 0) (hrolls : ∀ r ∈ rolls, 1 ≤ r)
    (hvs : ∀ v ∈ vs, 1 ≤ v) : vs.length = rolls.length * e.cap := by
  induction hx with
  | nil => rw [List.length_nil, Nat.zero_mul]
  | @cons v ws rs vs rs' ha _ ih =>
    obtain ⟨room, hroom, hc⟩ := ha
    have hws := hc.length_eq he (hrolls v List.mem_cons_self)
      fun w hw => hvs w (List.mem_append_left _ hw)
    have hrest := ih (fun r hr => hrolls r (List.mem_cons_of_mem _ hr))
      fun w hw => hvs w (List.mem_append_right _ hw)
    rw [List.length_append, hws, hrest, hroom hcap, List.length_cons, Nat.succ_mul, Nat.add_comm]

end Explode

theorem Hand.Noted.writable {count : Nat} {key : Int} {numbers : List Int} {text : String}
    {h h' : Hand} (hn : Noted count key numbers text h h') (hc : count ≠ 0) :
    numbers.all Numeral.writable = true ∧ Numeral.writable count = true := by
  cases hn with
  | never h0 => exact absurd h0 hc
  | tagged _ hw => simpa using hw

namespace Modifier

variable {o : Options} {t : DiceTerm} {m : Modifier} {ms : List Modifier} {h h' : Hand}
  {vs drawn : List Int}

theorem Steps.exists_step (hs : Steps t ms h vs h') (hms : ∀ m ∈ ms, o.Follows m)
    (hb : h.Balanced o t drawn) (hm : m ∈ ms) : ∃ h₁ us ws h₂, h₁.Balanced o t (drawn ++ us) ∧
      Step t m h₁ ws h₂ ∧ ∀ v ∈ us ++ ws, v ∈ vs := by
  induction hs generalizing drawn with
  | nil => cases hm
  | @cons m' ms h h₁ h' us ws hstep hs ih =>
    rcases List.mem_cons.1 hm with rfl | hm
    · refine ⟨h, [], us, h₁, ?_, hstep, fun v hv => List.mem_append_left _ hv⟩
      rwa [List.append_nil]
    · have hb' := hstep.balanced (hms _ List.mem_cons_self) hb
      obtain ⟨h₂, us', ws', h₃, hb₂, hstep', hmem⟩ :=
        ih (fun m hm => hms m (List.mem_cons_of_mem _ hm)) hb' hm
      refine ⟨h₂, us ++ us', ws', h₃, ?_, hstep', fun v hv => ?_⟩
      · rwa [List.append_assoc] at hb₂
      · rw [List.append_assoc] at hv
        rcases List.mem_append.1 hv with hv | hv
        · exact List.mem_append_left _ hv
        · exact List.mem_append_right _ (hmem v hv)

end Modifier

namespace Options

open Modifier

variable {o : Options} {t : DiceTerm} {h : Hand} {vs : List Int}

/-- Where a modifier is applied there is a roll for each die, and every roll
and every value drawn is one that a die can show. -/
theorem exists_laterStep {m : Modifier} (hs : Steps t (o.modifiersFor t) {} vs h)
    (hvs : ∀ v ∈ vs, 1 ≤ v ∧ v ≤ (t.sides : Int)) (hm : m ∈ o.laterModifiers t) :
    ∃ h₁ ws h₂, Step t m h₁ ws h₂ ∧ t.number ≤ h₁.rolls.length ∧
      (∀ r ∈ h₁.rolls, 1 ≤ r ∧ r ≤ (t.sides : Int)) ∧ ∀ v ∈ ws, 1 ≤ v := by
  rw [modifiersFor_eq_cons] at hs
  cases hs with
  | @cons _ _ _ h₀ _ us₀ ws₀ hfirst hrest =>
    obtain ⟨h₁, us, ws, h₂, hb, hstep, hmem⟩ :=
      hrest.exists_step (fun m hm => follows_of_mem hm) hfirst.balanced_first hm
    obtain ⟨-, hrolls, again, left, hp, -⟩ := hb
    refine ⟨h₁, ws, h₂, hstep, by omega, fun r hr => ?_, fun v hv => ?_⟩
    · have hr' : r ∈ us₀ ++ us :=
        hp.mem_iff.2 (List.mem_append_left _ (List.mem_append_left _ hr))
      rcases List.mem_append.1 hr' with hr' | hr'
      · exact hvs r (List.mem_append_left _ hr')
      · exact hvs r (List.mem_append_right _ (hmem r (List.mem_append_left _ hr')))
    · exact (hvs v (List.mem_append_right _ (hmem v (List.mem_append_right _ hv)))).1

theorem mem_laterModifiers_reroll {r : Reroll} (hr : o.reroll = some r) :
    .reroll (.number r.lte) ∈ o.laterModifiers t := by
  simp [laterModifiers, List.reduceOption_mem_iff, hr]

theorem mem_laterModifiers_explode {e : Explode} (he : o.explode = some e) :
    .explode (some e) ∈ o.laterModifiers t := by
  simp [laterModifiers, List.reduceOption_mem_iff, he]

theorem mem_laterModifiers_dropLowest {d : DropCount} (hd : o.dropLowest = some d)
    (h0 : d.count ≠ 0) : .drop .lowest (.number d.count) ∈ o.laterModifiers t := by
  simp [laterModifiers, droppingModifiers, List.reduceOption_mem_iff, hd, dropOf, h0]

theorem mem_laterModifiers_dropHighest {d : DropCount} (hd : o.dropHighest = some d)
    (h0 : d.count ≠ 0) : .drop .highest (.number d.count) ∈ o.laterModifiers t := by
  simp [laterModifiers, droppingModifiers, List.reduceOption_mem_iff, hd, dropOf, h0]

/-- The count of a drop with a tag is written whenever the drop is made. -/
theorem writable_of_dropStep {kind : Drop} {count : Nat} {h h' : Hand}
    (hs : Step t (.drop kind (.number count)) h vs h') (htag : kind.tag? ≠ none) :
    Numeral.writable count = true := by
  cases hs with
  | drop _ hnone => exact absurd hnone htag
  | dropTagged _ _ hw => simpa [Datum.numbers] using hw

/-- Only terms whose tags may be written can be rolled. -/
theorem tagsWritable_of_steps (hs : Steps t (o.modifiersFor t) {} vs h)
    (hvs : ∀ v ∈ vs, 1 ≤ v ∧ v ≤ (t.sides : Int)) (hsides : Numeral.writable t.sides = true) :
    o.TagsWritable t where
  dropLowest d hd := by
    by_cases h0 : d.count = 0
    · rw [h0]
      exact writable_zero
    · obtain ⟨h₁, ws, h₂, hstep, -⟩ :=
        exists_laterStep hs hvs (mem_laterModifiers_dropLowest hd h0)
      exact writable_of_dropStep hstep (by decide)
  dropHighest d hd := by
    by_cases h0 : d.count = 0
    · rw [h0]
      exact writable_zero
    · obtain ⟨h₁, ws, h₂, hstep, -⟩ :=
        exists_laterStep hs hvs (mem_laterModifiers_dropHighest hd h0)
      exact writable_of_dropStep hstep (by decide)
  reroll r hr hlow := by
    obtain ⟨h₁, ws, h₂, hstep, hlen, hrolls, -⟩ :=
      exists_laterStep hs hvs (mem_laterModifiers_reroll hr)
    have hnum := t.one_le_number
    rcases Int.le_total r.lte t.sides with hle | hle
    · exact writable_of_le (by omega) hle hsides
    · cases hstep with
      | reroll hrr hn =>
        have hall := hrr.length_eq_of_le fun v hv => Int.le_trans (hrolls v hv).2 hle
        have hw := (hn.writable (by omega)).1
        simpa [Datum.numbers] using hw
  explode e n he hn hlow hcap := by
    obtain ⟨h₁, ws, h₂, hstep, hlen, hrolls, hws⟩ :=
      exists_laterStep hs hvs (mem_laterModifiers_explode he)
    have htriggers : ∀ w, 1 ≤ w → e.triggers t.sides w = true := by
      intro w hw
      rw [Explode.triggers, hn]
      exact decide_eq_true (by omega)
    cases hstep with
    | explode hx hnote =>
      have hlength := hx.length_eq_mul htriggers hcap (fun r hr => (hrolls r hr).1) hws
      have hle : t.number * e.cap ≤ h₁.exploded + ws.length := by
        rw [hlength]
        exact Nat.le_trans (Nat.mul_le_mul_right e.cap hlen) (Nat.le_add_left _ _)
      have hpos : 0 < t.number * e.cap :=
        Nat.mul_pos t.one_le_number (Nat.pos_of_ne_zero hcap)
      obtain ⟨hw, hcount⟩ := hnote.writable (by omega)
      refine ⟨?_, writable_of_le (Int.natCast_nonneg _) (Int.ofNat_le.2 hle) hcount⟩
      rw [hn] at hw
      simpa [Threshold.numbers] using hw

theorem tagsWritable_of_ok {s s' : Source} (hok : o.rollTerm t s = .ok h s')
    (hsides : Numeral.writable t.sides = true) : o.TagsWritable t := by
  obtain ⟨vs, hs, hg⟩ := rollTerm_of_ok hok
  exact tagsWritable_of_steps hs hg.mem_range hsides

theorem rollTerm_ones (hw : o.TagsWritable t)
    (hn : ∀ r, o.reroll = some r → 1 ≤ r.lte → Numeral.writable t.number = true)
    (hu : ∀ e, o.explode = some e → e.unbounded = false) :
    ∃ n h, ∀ passed rest, o.rollTerm t (.scripted ⟨passed, List.replicate n 1 ++ rest⟩) =
      .ok h (.scripted ⟨(List.replicate n 1).reverse ++ passed, rest⟩) := by
  obtain ⟨n, h, hs⟩ := canPlay_modifiersFor hw hn hu
  refine ⟨n, h, (rollTerm_consumes hs fun v hv => ?_).full⟩
  have hsides := t.two_le_sides
  rw [(List.mem_replicate.1 hv).2]
  omega

end Options
end DiceRoller
