/-
# Modifiers as steps of a hand

`Modifier.Step t m h vs h'` says that a modifier turns the hand `h`, rolled
for the term `t`, into `h'` and draws the values `vs` for it, one rule for each
kind of modifier. `Modifier.Steps` is one step after the other. A modifier that
is applied with success has made such a step with what the source gave
(`Modifier.apply_of_ok`), and on a script each step can be made and consumes the
values (`Modifier.Step.consumes`); both go over to all the modifiers of a term
(`Options.rollTerm_of_ok`, `Options.rollTerm_consumes`). Whatever is said of
hands that have been rolled is proved of the steps.

A tag is left only if the numbers in it may be written; otherwise there is no
step.

Key definitions: `Hand.Noted`, `Modifier.Step`, `Modifier.Steps`.
Key theorems: `Modifier.apply_of_ok`, `Modifier.Step.consumes`,
`Options.modifiersFor_eq`, `Options.rollTerm_of_ok`,
`Options.rollTerm_consumes`.
-/
import DiceRoller.Hand.Pipeline
import DiceRoller.Proofs.Hand.Replay
import Mathlib.Data.List.Forall2
import Mathlib.Data.List.ReduceOption

namespace DiceRoller

/-! ### Tags -/

/-- A hand after the tag for something that was done `count` times: the tag is
left if it was ever done, and its numbers may be written. -/
inductive Hand.Noted (count : Nat) (key : Int) (numbers : List Int) (text : String) (h : Hand) :
    Hand → Prop
  | never : count = 0 → Noted count key numbers text h h
  | tagged : count ≠ 0 → (numbers ++ [(count : Int)]).all Numeral.writable = true →
      Noted count key numbers text h (h.tag key text)

/-- A tag changes the tags only. -/
theorem Hand.Noted.eq_tags {count : Nat} {key : Int} {numbers : List Int} {text : String}
    {h h' : Hand} (hn : Noted count key numbers text h h') : ∃ tags, h' = { h with tags } := by
  cases hn with
  | never => exact ⟨h.tags, rfl⟩
  | tagged => exact ⟨h.tags.set key text, rfl⟩

namespace Modifier

theorem leaveTag_eq_ok_iff {key : Int} {numbers : List Int} {text : String} {T U : Table} :
    leaveTag key numbers text T = .ok () U ↔
      numbers.all Numeral.writable = true ∧ U = { T with hand := T.hand.tag key text } := by
  rw [leaveTag, Play.ofExcept_bind_eq_ok_iff]
  constructor
  · rintro ⟨out, hp, hu⟩
    obtain ⟨hw, rfl⟩ := Numeral.publish_eq_ok_iff.1 hp
    cases hu
    exact ⟨hw, rfl⟩
  · rintro ⟨hw, rfl⟩
    exact ⟨text, Numeral.publish_eq_ok_iff.2 ⟨hw, rfl⟩, rfl⟩

/-- A tag with a count is left if the count is not zero. -/
theorem note_eq_ok_iff {count : Nat} {key : Int} {numbers : List Int} {text : String}
    {T U : Table} :
    (if count = 0 then pure () else leaveTag key (numbers ++ [(count : Int)]) text : Play Unit) T =
        .ok () U ↔
      ∃ h', Hand.Noted count key numbers text T.hand h' ∧ U = { T with hand := h' } := by
  constructor
  · intro hok
    split at hok
    · next h0 =>
      obtain ⟨-, rfl⟩ := pure_eq_ok_iff.1 hok
      exact ⟨T.hand, .never h0, rfl⟩
    · next h0 =>
      obtain ⟨hw, rfl⟩ := leaveTag_eq_ok_iff.1 hok
      exact ⟨_, .tagged h0 hw, rfl⟩
  · rintro ⟨h', hn, rfl⟩
    cases hn with
    | never h0 => rw [if_pos h0]; rfl
    | tagged h0 hw => rw [if_neg h0, leaveTag_eq_ok_iff.2 ⟨hw, rfl⟩]

/-! ### One modifier -/

/-- A modifier turns a hand into another one, and draws the values for it. -/
inductive Step (t : DiceTerm) : Modifier → Hand → List Int → Hand → Prop
  | roll {h : Hand} {vs : List Int} : vs.length = t.number →
      Step t .roll h vs { h with rolls := vs }
  | pick {times highest : Datum} {n : Nat} {v : Int} {h : Hand} {vs : List Int} :
      Play.timesOf times = .ok n → vs.length = n → best? highest.holds vs = some v →
      Step t (.pick times highest) h vs ({ h with samples := vs, rolls := [v] }.tag 5 "adv/dis")
  | reroll {lte : Datum} {h h' : Hand} {vs rolls : List Int} : Rerolls lte h.rolls vs rolls →
      Hand.Noted (h.rerolled + vs.length) 3 lte.numbers
        ("rr<=" ++ lte.plain ++ " x" ++ toString (h.rerolled + vs.length))
        { h with rolls, rerolled := h.rerolled + vs.length } h' → Step t (.reroll lte) h vs h'
  | explode {e : Explode} {h h' : Hand} {vs rolls : List Int} :
      Explodes e t.sides h.rolls vs rolls →
      Hand.Noted (h.exploded + vs.length) 4 e.threshold.numbers
        ("explode@" ++ e.threshold.text ++ " x" ++ toString (h.exploded + vs.length))
        { h with rolls, exploded := h.exploded + vs.length } h' → Step t (.explode (some e)) h vs h'
  | drop {kind : Drop} {num : Datum} {n : Int} {h : Hand} : dropCount num = .ok n →
      kind.tag? = none → Step t (.drop kind num) h [] (h.drop n kind.isHigh)
  | dropTagged {kind : Drop} {num : Datum} {n key : Int} {letters : String} {h : Hand} :
      dropCount num = .ok n → kind.tag? = some (key, letters) →
      num.numbers.all Numeral.writable = true →
      Step t (.drop kind num) h [] ((h.drop n kind.isHigh).tag key (letters ++ num.plain))

theorem chosen_bind {β : Type} (e : Explode) (k : Explode → Play β) (T : Table) :
    (chosen (some e) >>= k) T = k e T := rfl

theorem timesOf_bind {β : Type} (times : Nat) (k : Nat → Play β) :
    Play.ofExcept (Play.timesOf (.number times)) >>= k = k times := rfl

section Apply

variable {t : DiceTerm} {h h' : Hand} {s : Source} {T : Table} {vs : List Int}

theorem applyRoll_of_ok (hok : applyRoll ⟨t.draft, h, s⟩ = .ok () T) :
    ∃ vs s' h', Step t .roll h vs h' ∧ s.Gives t.sides vs s' ∧ T = ⟨t.draft, h', s'⟩ := by
  rw [applyRoll, bind_of_ok Play.number_draft] at hok
  obtain ⟨vs, _, hvs, hu⟩ := bind_eq_ok_iff.1 hok
  obtain ⟨hl, s', hg, rfl⟩ := Play.dice_eq_ok_iff.1 hvs
  cases hu
  exact ⟨vs, s', _, .roll hl, hg, rfl⟩

theorem applyPick_of_ok {times highest : Datum}
    (hok : applyPick times highest ⟨t.draft, h, s⟩ = .ok () T) :
    ∃ vs s' h', Step t (.pick times highest) h vs h' ∧ s.Gives t.sides vs s' ∧
      T = ⟨t.draft, h', s'⟩ := by
  obtain ⟨n, hn, h₁⟩ := Play.ofExcept_bind_eq_ok_iff.1 hok
  obtain ⟨vs, _, hvs, h₂⟩ := bind_eq_ok_iff.1 h₁
  obtain ⟨hl, s', hg, rfl⟩ := Play.dice_eq_ok_iff.1 hvs
  rw [Play.update_bind] at h₂
  cases hv : best? highest.holds vs with
  | none => rw [hv] at h₂; cases h₂
  | some v =>
    rw [hv] at h₂
    cases h₂
    exact ⟨vs, s', _, .pick hn hl hv, hg, rfl⟩

theorem applyReroll_of_ok {lte : Datum} (hok : applyReroll lte ⟨t.draft, h, s⟩ = .ok () T) :
    ∃ vs s' h', Step t (.reroll lte) h vs h' ∧ s.Gives t.sides vs s' ∧ T = ⟨t.draft, h', s'⟩ := by
  rw [applyReroll, Play.hand_bind] at hok
  obtain ⟨rolls, _, hr, h₁⟩ := bind_eq_ok_iff.1 hok
  obtain ⟨vs, s', hrs, hg, rfl⟩ := Play.rerollEach_eq_ok_iff.1 hr
  rw [Play.update_bind, Play.hand_bind] at h₁
  obtain ⟨h', hn, rfl⟩ := note_eq_ok_iff.1 h₁
  exact ⟨vs, s', h', .reroll hrs hn, hg, rfl⟩

theorem applyExplode_of_ok {e : Option Explode}
    (hok : applyExplode e ⟨t.draft, h, s⟩ = .ok () T) :
    ∃ vs s' h', Step t (.explode e) h vs h' ∧ s.Gives t.sides vs s' ∧ T = ⟨t.draft, h', s'⟩ := by
  rw [applyExplode, Play.hand_bind, bind_of_ok Play.sides_draft] at hok
  cases e with
  | none => cases hok
  | some e =>
    rw [chosen_bind] at hok
    obtain ⟨rolls, _, hr, h₁⟩ := bind_eq_ok_iff.1 hok
    obtain ⟨vs, s', hrs, hg, rfl⟩ := Play.explodeEach_of_ok hr
    rw [Play.update_bind, Play.hand_bind] at h₁
    obtain ⟨h', hn, rfl⟩ := note_eq_ok_iff.1 h₁
    exact ⟨vs, s', h', .explode hrs hn, hg, rfl⟩

theorem applyDrop_eq (kind : Drop) (num : Datum) : applyDrop kind num =
    (do let count ← Play.ofExcept (dropCount num)
        Play.update (·.drop count kind.isHigh)
        match kind.tag? with
        | none => return ()
        | some (key, letters) => leaveTag key num.numbers (letters ++ num.plain)) := by
  funext T
  rw [applyDrop, dropValues]
  cases dropCount num <;> rfl

theorem applyDrop_of_ok {kind : Drop} {num : Datum}
    (hok : applyDrop kind num ⟨t.draft, h, s⟩ = .ok () T) :
    ∃ h', Step t (.drop kind num) h [] h' ∧ T = ⟨t.draft, h', s⟩ := by
  rw [applyDrop_eq] at hok
  obtain ⟨n, hn, h₁⟩ := Play.ofExcept_bind_eq_ok_iff.1 hok
  rw [Play.update_bind] at h₁
  cases htag : kind.tag? with
  | none =>
    rw [htag] at h₁
    cases h₁
    exact ⟨_, .drop hn htag, rfl⟩
  | some tag =>
    rw [htag] at h₁
    obtain ⟨hw, rfl⟩ := leaveTag_eq_ok_iff.1 h₁
    exact ⟨_, .dropTagged hn htag hw, rfl⟩

/-- A modifier that is applied with success makes a step with what the source
gives. -/
theorem apply_of_ok {m : Modifier} (hok : m.apply ⟨t.draft, h, s⟩ = .ok () T) :
    ∃ vs s' h', Step t m h vs h' ∧ s.Gives t.sides vs s' ∧ T = ⟨t.draft, h', s'⟩ := by
  cases m with
  | roll => exact applyRoll_of_ok hok
  | pick times highest => exact applyPick_of_ok hok
  | reroll lte => exact applyReroll_of_ok hok
  | explode e => exact applyExplode_of_ok hok
  | drop kind num =>
    obtain ⟨h', hs, rfl⟩ := applyDrop_of_ok hok
    exact ⟨[], s, h', hs, .nil, rfl⟩

/-- A step can be made on a script, and consumes the values it is made with. -/
theorem Step.consumes {m : Modifier} (hs : Step t m h vs h')
    (hvs : ∀ v ∈ vs, 1 ≤ v ∧ v ≤ (t.sides : Int)) :
    Consumes m.apply (.playing t.draft h) vs () (.playing t.draft h') := by
  cases hs with
  | roll hl =>
    rw [apply, applyRoll]
    refine .after_quiet (fun _ => Play.number_draft) ?_
    rw [← hl]
    exact (Play.dice_consumes hvs).then_quiet fun _ => rfl
  | pick hn hl hv =>
    rw [apply, applyPick, hn]
    refine .after_quiet (fun _ => rfl) ?_
    rw [← hl]
    refine (Play.dice_consumes hvs).then_quiet fun p => ?_
    rw [Play.update_bind, hv]
    rfl
  | reroll hrs hn =>
    rw [apply, applyReroll]
    refine .after_quiet (fun _ => rfl) ((Play.rerollEach_consumes hrs hvs h).then_quiet fun p => ?_)
    rw [Play.update_bind, Play.hand_bind]
    exact note_eq_ok_iff.2 ⟨h', hn, rfl⟩
  | explode hrs hn =>
    rw [apply, applyExplode]
    refine .after_quiet (fun _ => rfl) (.after_quiet (fun _ => Play.sides_draft)
      (.after_quiet (fun _ => rfl) ((Play.explodeEach_consumes hrs hvs h).then_quiet fun p => ?_)))
    rw [Play.update_bind, Play.hand_bind]
    exact note_eq_ok_iff.2 ⟨h', hn, rfl⟩
  | drop hn htag =>
    refine .quiet fun p => ?_
    rw [apply, applyDrop_eq]
    refine Play.ofExcept_bind_eq_ok_iff.2 ⟨_, hn, ?_⟩
    rw [Play.update_bind, htag]
    rfl
  | dropTagged hn htag hw =>
    refine .quiet fun p => ?_
    rw [apply, applyDrop_eq]
    refine Play.ofExcept_bind_eq_ok_iff.2 ⟨_, hn, ?_⟩
    rw [Play.update_bind, htag]
    exact leaveTag_eq_ok_iff.2 ⟨hw, rfl⟩

end Apply

/-! ### Modifiers one after the other -/

/-- The modifiers, one after the other, turn a hand into another one. -/
inductive Steps (t : DiceTerm) : List Modifier → Hand → List Int → Hand → Prop
  | nil {h : Hand} : Steps t [] h [] h
  | cons {m : Modifier} {ms : List Modifier} {h h₁ h' : Hand} {vs ws : List Int} :
      Step t m h vs h₁ → Steps t ms h₁ ws h' → Steps t (m :: ms) h (vs ++ ws) h'

section ApplyAll

variable {t : DiceTerm} {ms ns : List Modifier} {h h' : Hand} {vs : List Int}

theorem Steps.split (hs : Steps t (ms ++ ns) h vs h') : ∃ vs₁ vs₂ h₁, vs = vs₁ ++ vs₂ ∧
    Steps t ms h vs₁ h₁ ∧ Steps t ns h₁ vs₂ h' := by
  induction ms generalizing h vs with
  | nil => exact ⟨[], vs, h, rfl, .nil, hs⟩
  | cons m ms ih =>
    cases hs with
    | @cons _ _ _ _ _ us ws hm hs =>
      obtain ⟨vs₁, vs₂, h₁, rfl, h1, h2⟩ := ih hs
      exact ⟨us ++ vs₁, vs₂, h₁, by rw [List.append_assoc], .cons hm h1, h2⟩

theorem applyAll_append (ms ns : List Modifier) :
    applyAll (ms ++ ns) = applyAll ms >>= fun _ => applyAll ns := by
  induction ms with
  | nil => rfl
  | cons m ms ih =>
    funext T
    rw [List.cons_append, applyAll, ih, applyAll]
    simp only [bind_assoc]

theorem applyAll_of_ok {s : Source} {T : Table} (hok : applyAll ms ⟨t.draft, h, s⟩ = .ok () T) :
    ∃ vs s' h', Steps t ms h vs h' ∧ s.Gives t.sides vs s' ∧ T = ⟨t.draft, h', s'⟩ := by
  induction ms generalizing h s with
  | nil =>
    cases hok
    exact ⟨[], s, h, .nil, .nil, rfl⟩
  | cons m ms ih =>
    obtain ⟨_, _, hm, hms⟩ := bind_eq_ok_iff.1 hok
    obtain ⟨vs, s₁, h₁, hs, hg, rfl⟩ := apply_of_ok hm
    obtain ⟨ws, s', h', hs', hg', rfl⟩ := ih hms
    exact ⟨vs ++ ws, s', h', .cons hs hs', hg.append hg', rfl⟩

/-- The steps can be made on a script, and consume the values they are made with. -/
theorem Steps.consumes (hs : Steps t ms h vs h') (hvs : ∀ v ∈ vs, 1 ≤ v ∧ v ≤ (t.sides : Int)) :
    Consumes (applyAll ms) (.playing t.draft h) vs () (.playing t.draft h') := by
  induction hs with
  | nil => exact .quiet fun _ => rfl
  | cons hm _ ih =>
    have hfirst := hm.consumes fun v hv => hvs v (List.mem_append_left _ hv)
    exact hfirst.bind (ih fun v hv => hvs v (List.mem_append_right _ hv))

end ApplyAll
end Modifier

/-! ### The modifiers of a term -/

namespace Options

variable {o : Options} {t : DiceTerm} {h : Hand}

/-- The modifiers by which the rolls come about. -/
def rollingModifiers (o : Options) (t : DiceTerm) : List Modifier :=
  o.initialRoll t ::
    [o.reroll.map fun r => .reroll (.number r.lte),
     o.explode.map fun e => .explode (some e)].reduceOption

/-- The modifiers by which rolls are dropped. -/
def droppingModifiers (o : Options) (t : DiceTerm) : List Modifier :=
  [dropOf .inTerm t.drop,
   o.dropLowest.bind fun d => dropOf .lowest d.count,
   o.dropHighest.bind fun d => dropOf .highest d.count].reduceOption

theorem dropOf_eq_some_iff {kind : Drop} {count : Nat} {m : Modifier} :
    dropOf kind count = some m ↔ count ≠ 0 ∧ m = .drop kind (.number count) := by
  unfold dropOf
  split
  · next h0 => simp [h0]
  · next h0 => simp [h0, eq_comm]

/-- Without the option it is as if nothing were dropped by it. -/
theorem bind_dropOf (kind : Drop) (part : Option DropCount) :
    (part.bind fun d => dropOf kind d.count) = dropOf kind (part.elim 0 (·.count)) := by
  cases part <;> rfl

/-- Whether the part calls for a pick on the term. -/
def picks (part : Option MultiRoll) (t : DiceTerm) : Bool := part.any (·.applies t)

/-- Which sample a pick takes on the term, the highest or the lowest one, if any
pick is made on it. Advantage comes before disadvantage. -/
def pickOf (o : Options) (t : DiceTerm) : Option Bool :=
  if picks o.advantage t then some true else if picks o.disadvantage t then some false else none

theorem pick?_of_picks {part : Option MultiRoll} {highest : Bool} (hp : picks part t = true) :
    t.number = 1 ∧ ∃ times : Nat, 1 < times ∧
      pick? part highest t = some (.pick (.number times) (.truth highest)) := by
  cases part with
  | none => cases hp
  | some p =>
    have happ : p.applies t = true := hp
    have hnum := happ
    rw [MultiRoll.applies, Bool.and_eq_true, beq_iff_eq] at hnum
    exact ⟨hnum.1, p.times, p.one_lt_times, if_pos happ⟩

theorem pick?_of_not_picks {part : Option MultiRoll} {highest : Bool} (hp : ¬ picks part t = true) :
    pick? part highest t = none := by
  cases part with
  | none => rfl
  | some p => exact if_neg hp

/-- The first modifier for a term rolls its dice, or makes a pick of at least
two rolls if the term is a single die. -/
theorem initialRoll_cases (o : Options) (t : DiceTerm) :
    (o.pickOf t = none ∧ o.initialRoll t = .roll) ∨
      ∃ highest, ∃ times : Nat, o.pickOf t = some highest ∧ t.number = 1 ∧ 1 < times ∧
        o.initialRoll t = .pick (.number times) (.truth highest) := by
  unfold initialRoll pickOf
  by_cases ha : picks o.advantage t = true
  · obtain ⟨hnum, times, htimes, hpick⟩ := pick?_of_picks ha
    exact .inr ⟨true, times, if_pos ha, hnum, htimes, by rw [hpick]; rfl⟩
  · rw [if_neg ha, pick?_of_not_picks ha]
    by_cases hd : picks o.disadvantage t = true
    · obtain ⟨hnum, times, htimes, hpick⟩ := pick?_of_picks hd
      exact .inr ⟨false, times, if_pos hd, hnum, htimes, by rw [hpick]; rfl⟩
    · exact .inl ⟨if_neg hd, by rw [pick?_of_not_picks hd]; rfl⟩

/-- Each of the modifiers, if it is there, has the weight in its place. -/
def Weighing (ms : List (Option Modifier)) (weights : List Nat) : Prop :=
  List.Forall₂ (fun m? w => ∀ m : Modifier, m? = some m → m.weight = w) ms weights

theorem Weighing.weight_mem {ms : List (Option Modifier)} {weights : List Nat}
    (hw : Weighing ms weights) {n : Modifier} (hn : some n ∈ ms) : n.weight ∈ weights := by
  induction hw with
  | nil => cases hn
  | cons hm _ ih =>
    rcases List.mem_cons.1 hn with heq | hn
    · rw [hm n heq.symm]
      exact List.mem_cons_self
    · exact List.mem_cons_of_mem _ (ih hn)

/-- Modifiers whose weights rise are in the order of application. -/
theorem Weighing.pairwise {ms : List (Option Modifier)} {weights : List Nat}
    (hw : Weighing ms weights) (hrise : weights.Pairwise (· ≤ ·)) :
    ms.reduceOption.Pairwise fun m n => decide (m.weight ≤ n.weight) = true := by
  induction hw with
  | nil => exact .nil
  | @cons m? w ms weights hm hms ih =>
    obtain ⟨hle, hrise⟩ := List.pairwise_cons.1 hrise
    cases m? with
    | none => exact ih hrise
    | some m =>
      refine List.pairwise_cons.2 ⟨fun n hn => decide_eq_true ?_, ih hrise⟩
      obtain ⟨n?, hn?, rfl⟩ := List.mem_filterMap.1 hn
      rw [hm m rfl]
      exact hle _ (Weighing.weight_mem hms hn?)

theorem dropOf_weight {kind : Drop} {count : Nat} {m : Modifier} (hm : dropOf kind count = some m) :
    m.weight = kind.weight := by
  rw [(dropOf_eq_some_iff.1 hm).2, Modifier.weight]

/-- The modifiers are listed in the order of application. -/
theorem modifiersFor_eq (o : Options) (t : DiceTerm) :
    o.modifiersFor t = o.rollingModifiers t ++ o.droppingModifiers t := by
  have hfirst : (o.initialRoll t).weight = 0 := by
    rcases o.initialRoll_cases t with ⟨-, h⟩ | ⟨_, _, -, -, -, h⟩ <;> rw [h] <;> rfl
  have hall : o.rollingModifiers t ++ o.droppingModifiers t =
      o.listedAfter (o.initialRoll t) (dropOf .inTerm t.drop) := by
    rw [rollingModifiers, droppingModifiers, listedAfter, List.cons_append,
      ← List.reduceOption_append]
    rfl
  have hreroll : ∀ m : Modifier,
      o.reroll.map (fun r => Modifier.reroll (.number r.lte)) = some m → m.weight = 1 := by
    intro m hm
    obtain ⟨r, -, rfl⟩ := Option.map_eq_some_iff.1 hm
    rfl
  have hexplode : ∀ m : Modifier,
      o.explode.map (fun e => Modifier.explode (some e)) = some m → m.weight = 2 := by
    intro m hm
    obtain ⟨e, -, rfl⟩ := Option.map_eq_some_iff.1 hm
    rfl
  have hdrop : ∀ (part : Option DropCount) (kind : Drop) (m : Modifier),
      part.bind (fun d => dropOf kind d.count) = some m → m.weight = kind.weight := by
    intro part kind m hm
    rw [bind_dropOf] at hm
    exact dropOf_weight hm
  rw [modifiersFor, Modifier.sort, hall]
  refine List.mergeSort_of_pairwise (List.pairwise_cons.2 ⟨fun m _ => by simp [hfirst], ?_⟩)
  exact Weighing.pairwise
    (.cons hreroll (.cons hexplode (.cons (fun m hm => dropOf_weight hm)
      (.cons (hdrop _ .lowest) (.cons (hdrop _ .highest) .nil)))))
    (by decide : [1, 2, 3, 4, 5].Pairwise (· ≤ ·))

/-- A modifier that comes after the first one is one that the options ask for. -/
inductive Follows (o : Options) : Modifier → Prop
  | reroll {r : Reroll} : o.reroll = some r → Follows o (.reroll (.number r.lte))
  | explode {e : Explode} : o.explode = some e → Follows o (.explode (some e))
  | drop (kind : Drop) (count : Nat) : Follows o (.drop kind (.number count))

/-- Between the first modifier and the drops there are only a reroll and an
explosion. -/
theorem reroll_or_explode_of_mem {m : Modifier}
    (hm : m ∈ [o.reroll.map fun r => Modifier.reroll (.number r.lte),
      o.explode.map fun e => Modifier.explode (some e)].reduceOption) :
    (∃ r, o.reroll = some r ∧ m = .reroll (.number r.lte)) ∨
      ∃ e, o.explode = some e ∧ m = .explode (some e) := by
  obtain ⟨m?, hm?, rfl⟩ := List.mem_filterMap.1 hm
  simp only [List.mem_cons, List.not_mem_nil, or_false] at hm?
  rcases hm? with hm? | hm?
  · obtain ⟨r, hr, hm⟩ := Option.map_eq_some_iff.1 hm?.symm
    exact .inl ⟨r, hr, hm.symm⟩
  · obtain ⟨e, he, hm⟩ := Option.map_eq_some_iff.1 hm?.symm
    exact .inr ⟨e, he, hm.symm⟩

theorem mem_droppingModifiers {m : Modifier} (hm : m ∈ o.droppingModifiers t) :
    ∃ kind, ∃ count : Nat, m = .drop kind (.number count) := by
  obtain ⟨m?, hm?, rfl⟩ := List.mem_filterMap.1 hm
  simp only [bind_dropOf, List.mem_cons, List.not_mem_nil, or_false] at hm?
  rcases hm? with hd | hd | hd <;> exact ⟨_, _, (dropOf_eq_some_iff.1 hd.symm).2⟩

/-- The modifiers that come after the first one. -/
def laterModifiers (o : Options) (t : DiceTerm) : List Modifier :=
  [o.reroll.map fun r => .reroll (.number r.lte),
   o.explode.map fun e => .explode (some e)].reduceOption ++ o.droppingModifiers t

theorem modifiersFor_eq_cons (o : Options) (t : DiceTerm) :
    o.modifiersFor t = o.initialRoll t :: o.laterModifiers t :=
  modifiersFor_eq o t

/-- Without options the dice of a term that drops nothing are rolled, and nothing
else is done to them. -/
theorem steps_plain {vs : List Int} (h0 : t.drop = 0) (hl : vs.length = t.number) :
    Modifier.Steps t (Options.modifiersFor {} t) {} vs { rolls := vs } := by
  have hlater : Options.laterModifiers {} t = [] := by
    rw [laterModifiers, droppingModifiers, h0]
    rfl
  have hroll : Modifier.Step t .roll {} vs { rolls := vs } := .roll hl
  have hsteps := Modifier.Steps.cons hroll .nil
  rw [List.append_nil] at hsteps
  rw [modifiersFor_eq_cons, hlater]
  exact hsteps

theorem follows_of_mem {m : Modifier} (hm : m ∈ o.laterModifiers t) : o.Follows m := by
  rcases List.mem_append.1 hm with hm | hm
  · rcases reroll_or_explode_of_mem hm with ⟨r, hr, rfl⟩ | ⟨e, he, rfl⟩
    · exact .reroll hr
    · exact .explode he
  · obtain ⟨kind, count, rfl⟩ := mem_droppingModifiers hm
    exact .drop kind count

theorem rollTerm_eq_ok_iff {s s' : Source} : o.rollTerm t s = .ok h s' ↔
    Modifier.applyAll (o.modifiersFor t) ⟨t.draft, {}, s⟩ = .ok () ⟨t.draft, h, s'⟩ := by
  unfold rollTerm
  constructor
  · intro hok
    split at hok
    · next hall =>
      obtain ⟨_, s₁, h₁, -, -, rfl⟩ := Modifier.applyAll_of_ok hall
      cases hok
      exact hall
    · cases hok
  · intro hall
    rw [hall]

/-- The steps of the whole roll draw the values and make the hand. -/
theorem rollTerm_of_ok {s s' : Source} (hok : o.rollTerm t s = .ok h s') :
    ∃ vs, Modifier.Steps t (o.modifiersFor t) {} vs h ∧ s.Gives t.sides vs s' := by
  obtain ⟨vs, s₁, h₁, hs, hg, hT⟩ := Modifier.applyAll_of_ok (rollTerm_eq_ok_iff.1 hok)
  cases hT
  exact ⟨vs, hs, hg⟩

/-- A script that holds the values makes the hand, and no other values of the
script matter. -/
theorem rollTerm_consumes {vs : List Int} (hs : Modifier.Steps t (o.modifiersFor t) {} vs h)
    (hvs : ∀ v ∈ vs, 1 ≤ v ∧ v ≤ (t.sides : Int)) :
    Consumes (o.rollTerm t) .scripted vs h .scripted where
  full passed rest := rollTerm_eq_ok_iff.2 ((hs.consumes hvs).full passed rest)
  short hsplit passed := by
    obtain ⟨T, hT, hsource⟩ := (hs.consumes hvs).short hsplit passed
    refine ⟨T.source, ?_, hsource⟩
    rw [rollTerm, hT]

end Options
end DiceRoller
