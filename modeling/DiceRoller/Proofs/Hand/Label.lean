/-
# The tags of a hand

Tags are texts; a label says what a tag tells. A hand that has been rolled has
the labels `Hand.labels`: for each drop that the options ask for, for rerolls
and explosions that took place, and for a pick, in this order
(`Options.labelled_of_steps`). Nothing else is ever tagged.

There is one place for each kind of label, and a tag is put into its own place
whatever stands in the others (`Slotted.set`); so each step keeps the labels
right by itself (`Modifier.Step.labelled`), in whatever order the steps come.

Key definitions: `Label`, `Hand.labels`, `Hand.Labelled`.
Key theorems: `Slotted.set`, `Modifier.Step.labelled`,
`Options.labelled_of_steps`.
-/
import DiceRoller.Proofs.Hand.DropLaw

namespace DiceRoller

/-! ### Labels -/

/-- What a tag tells. -/
inductive Label where
  | dropLowest (count : Nat)
  | dropHighest (count : Nat)
  | reroll (lte : Int) (count : Nat)
  | explode (threshold : Threshold) (count : Nat)
  | pick
  deriving DecidableEq, Repr

namespace Label

/-- The number that the tag is kept under. -/
def key : Label → Int
  | dropLowest _ => 1
  | dropHighest _ => 2
  | reroll _ _ => 3
  | explode _ _ => 4
  | pick => 5

/-- The tag as it is written. -/
def text : Label → String
  | dropLowest count => "DL" ++ toString count
  | dropHighest count => "DH" ++ toString count
  | reroll lte count => "rr<=" ++ toString lte ++ " x" ++ toString count
  | explode threshold count => "explode@" ++ threshold.text ++ " x" ++ toString count
  | pick => "adv/dis"

/-- The tag with its number. -/
def entry (l : Label) : Int × String := (l.key, l.text)

end Label

/-! ### Places for labels -/

/-- Each of the labels, if it is there, has the number of its place. -/
def Slotted (ls : List (Option Label)) (keys : List Int) : Prop :=
  List.Forall₂ (fun l? k => ∀ l : Label, l? = some l → l.key = k) ls keys

namespace Slotted

variable {ls : List (Option Label)} {keys : List Int} {l : Label}

theorem key_mem (hs : Slotted ls keys) (hl : l ∈ ls.reduceOption) : l.key ∈ keys := by
  induction hs with
  | nil => cases hl
  | @cons l? k ls keys hk _ ih =>
    cases l? with
    | none => exact List.mem_cons_of_mem _ (ih hl)
    | some l₀ =>
      rcases List.mem_cons.1 hl with rfl | hl
      · rw [hk l rfl]
        exact List.mem_cons_self
      · exact List.mem_cons_of_mem _ (ih hl)

/-- Where the numbers of the places rise, those of the labels rise. -/
theorem pairwise (hs : Slotted ls keys) (hrise : keys.Pairwise (· < ·)) :
    (ls.reduceOption.map Label.key).Pairwise (· < ·) := by
  induction hs with
  | nil => exact .nil
  | @cons l? k ls keys hk hls ih =>
    obtain ⟨hlt, hrise⟩ := List.pairwise_cons.1 hrise
    cases l? with
    | none => exact ih hrise
    | some l₀ =>
      refine List.pairwise_cons.2 ⟨fun k' hk' => ?_, ih hrise⟩
      obtain ⟨l', hl', rfl⟩ := List.mem_map.1 hk'
      rw [hk l₀ rfl]
      exact hlt _ (key_mem hls hl')

theorem set_of_lt {tags : Tags} {key : Int} {text : String} (hlt : ∀ p ∈ tags, key < p.1) :
    Tags.set tags key text = (key, text) :: tags := by
  cases tags with
  | nil => rfl
  | cons p tags => rw [Tags.set, if_pos (hlt p List.mem_cons_self)]

theorem set (hs : Slotted ls keys) (hrise : keys.Pairwise (· < ·)) {i : Nat}
    (hi : keys[i]? = some l.key) : Tags.set (ls.reduceOption.map Label.entry) l.key l.text =
      (ls.set i (some l)).reduceOption.map Label.entry := by
  induction hs generalizing i with
  | nil => cases hi
  | @cons l? k ls keys hk hls ih =>
    obtain ⟨hlt, hrise⟩ := List.pairwise_cons.1 hrise
    cases i with
    | zero =>
      obtain rfl : k = l.key := Option.some.inj hi
      have hafter : ∀ p ∈ ls.reduceOption.map Label.entry, l.key < p.1 := by
        intro p hp
        obtain ⟨l', hl', rfl⟩ := List.mem_map.1 hp
        exact hlt _ (key_mem hls hl')
      cases l? with
      | none => exact set_of_lt hafter
      | some l₀ =>
        have heq : l₀.key = l.key := hk l₀ rfl
        show Tags.set ((l₀.key, l₀.text) :: ls.reduceOption.map Label.entry) l.key l.text = _
        rw [Tags.set, if_neg (by omega), if_pos heq.symm]
        rfl
    | succ i =>
      have hrest := ih hrise hi
      cases l? with
      | none => exact hrest
      | some l₀ =>
        have hl₀ : l₀.key < l.key := by
          rw [hk l₀ rfl]
          exact hlt _ (List.mem_of_getElem? hi)
        show Tags.set ((l₀.key, l₀.text) :: ls.reduceOption.map Label.entry) l.key l.text = _
        rw [Tags.set, if_neg (by omega), if_neg (by omega), hrest]
        rfl

end Slotted

/-! ### The labels of a hand -/

namespace Hand

/-- A place for each kind of label; `low` and `high` are how many of the lowest
and of the highest values the options drop. -/
def slots (o : Options) (low high : Nat) (h : Hand) : List (Option Label) :=
  [(Option.guard (0 < ·) low).map .dropLowest,
   (Option.guard (0 < ·) high).map .dropHighest,
   o.reroll.bind fun r => (Option.guard (0 < ·) h.rerolled).map (.reroll r.lte),
   o.explode.bind fun e => (Option.guard (0 < ·) h.exploded).map (.explode e.threshold),
   (Option.guard (· ≠ []) h.samples).map fun _ => .pick]

/-- The labels of a hand, in order. -/
def labels (o : Options) (low high : Nat) (h : Hand) : List Label :=
  (h.slots o low high).reduceOption

/-- The tags of the hand are its labels, and what is counted was asked for. -/
structure Labelled (o : Options) (low high : Nat) (h : Hand) : Prop where
  tags_eq : h.tags = (h.labels o low high).map Label.entry
  reroll : 0 < h.rerolled → ∃ r, o.reroll = some r
  explode : 0 < h.exploded → ∃ e, o.explode = some e

variable {o : Options} {low high n : Nat} {h : Hand}

theorem slotted (o : Options) (low high : Nat) (h : Hand) :
    Slotted (h.slots o low high) [1, 2, 3, 4, 5] := by
  refine .cons ?_ (.cons ?_ (.cons ?_ (.cons ?_ (.cons ?_ .nil)))) <;> intro l hl
  · obtain ⟨n, -, rfl⟩ := Option.map_eq_some_iff.1 hl
    rfl
  · obtain ⟨n, -, rfl⟩ := Option.map_eq_some_iff.1 hl
    rfl
  · obtain ⟨r, -, hr⟩ := Option.bind_eq_some_iff.1 hl
    obtain ⟨n, -, rfl⟩ := Option.map_eq_some_iff.1 hr
    rfl
  · obtain ⟨e, -, he⟩ := Option.bind_eq_some_iff.1 hl
    obtain ⟨n, -, rfl⟩ := Option.map_eq_some_iff.1 he
    rfl
  · obtain ⟨vs, -, rfl⟩ := Option.map_eq_some_iff.1 hl
    rfl

theorem mem_labels {l : Label} : l ∈ h.labels o low high ↔
    match l with
    | .dropLowest n => 0 < low ∧ low = n
    | .dropHighest n => 0 < high ∧ high = n
    | .reroll lte n => ∃ r, o.reroll = some r ∧ 0 < h.rerolled ∧ r.lte = lte ∧ h.rerolled = n
    | .explode threshold n =>
      ∃ e, o.explode = some e ∧ 0 < h.exploded ∧ e.threshold = threshold ∧ h.exploded = n
    | .pick => h.samples ≠ [] := by
  rw [labels, List.reduceOption_mem_iff, slots]
  simp only [List.mem_cons, List.not_mem_nil, or_false, eq_comm (a := some l),
    Option.map_eq_some_iff, Option.bind_eq_some_iff, Option.guard_eq_some_iff, decide_eq_true_eq]
  cases l <;> simp

theorem labels_pairwise (o : Options) (low high : Nat) (h : Hand) :
    ((h.labels o low high).map Label.key).Pairwise (· < ·) :=
  (slotted o low high h).pairwise (by decide)

theorem guard_pos_of_ne_zero (h0 : n ≠ 0) : Option.guard (0 < ·) n = some n :=
  Option.guard_eq_some_iff.2 ⟨rfl, decide_eq_true (Nat.pos_of_ne_zero h0)⟩

theorem Labelled.tag {h' : Hand} {low' high' i : Nat} {l : Label} (hl : h.Labelled o low high)
    (htags : h'.tags = h.tags) (hi : [1, 2, 3, 4, 5][i]? = some l.key)
    (hslots : h'.slots o low' high' = (h.slots o low high).set i (some l))
    (hreroll : 0 < h'.rerolled → ∃ r, o.reroll = some r)
    (hexplode : 0 < h'.exploded → ∃ e, o.explode = some e) :
    (h'.tag l.key l.text).Labelled o low' high' where
  tags_eq := by
    show Tags.set h'.tags l.key l.text = (h'.slots o low' high').reduceOption.map Label.entry
    rw [htags, hl.tags_eq, hslots]
    exact (slotted o low high h).set (by decide) hi
  reroll := hreroll
  explode := hexplode

end Hand

/-! ### Steps keep the labels -/

namespace Modifier

variable {o : Options} {t : DiceTerm} {m : Modifier} {ms : List Modifier} {h h' : Hand}
  {vs : List Int} {low high : Nat}

/-- The first modifier leaves a label for a pick. -/
theorem Step.labelled_first (hs : Step t (o.initialRoll t) {} vs h) : h.Labelled o 0 0 := by
  have hfresh : Hand.Labelled o 0 0 {} :=
    ⟨by simp [Hand.labels, Hand.slots, List.reduceOption, Option.guard], nofun, nofun⟩
  rcases o.initialRoll_cases t with ⟨-, hm⟩ | ⟨highest, times, -, -, htimes, hm⟩ <;> rw [hm] at hs
  · cases hs with
    | roll hl => exact ⟨hfresh.tags_eq, nofun, nofun⟩
  · cases hs with
    | pick hn hl hv =>
      have hne : vs ≠ [] := by
        rintro rfl
        cases hn
        rw [List.length_nil, Int.toNat_natCast] at hl
        omega
      refine hfresh.tag (l := .pick) (i := 4) rfl rfl ?_ nofun nofun
      simp [Hand.slots, Option.guard, hne]

/-- A reroll or an explosion leaves a label, if there is anything to count. -/
theorem Step.labelled (hs : Step t m h vs h') (hl : h.Labelled o low high)
    (hm : (∃ r, o.reroll = some r ∧ m = .reroll (.number r.lte)) ∨
      ∃ e, o.explode = some e ∧ m = .explode (some e)) : h'.Labelled o low high := by
  rcases hm with ⟨r, hr, rfl⟩ | ⟨e, he, rfl⟩
  · cases hs with
    | reroll _ hn =>
      cases hn with
      | never h0 =>
        rw [(Nat.add_eq_zero_iff.1 h0).2]
        exact ⟨hl.tags_eq, fun _ => ⟨r, hr⟩, hl.explode⟩
      | tagged h0 _ =>
        refine hl.tag (l := .reroll r.lte (h.rerolled + vs.length)) (i := 2) rfl rfl ?_
          (fun _ => ⟨r, hr⟩) hl.explode
        simp only [Hand.slots, hr, Option.bind_some, Hand.guard_pos_of_ne_zero h0]
        rfl
  · cases hs with
    | explode _ hn =>
      cases hn with
      | never h0 =>
        rw [(Nat.add_eq_zero_iff.1 h0).2]
        exact ⟨hl.tags_eq, hl.reroll, fun _ => ⟨e, he⟩⟩
      | tagged h0 _ =>
        refine hl.tag (l := .explode e.threshold (h.exploded + vs.length)) (i := 3) rfl rfl ?_
          hl.reroll (fun _ => ⟨e, he⟩)
        simp only [Hand.slots, he, Option.bind_some, Hand.guard_pos_of_ne_zero h0]
        rfl

/-- A hand before and after a drop, unless it is of nothing. -/
def Dropped (t : DiceTerm) (kind : Drop) (count : Nat) (h h' : Hand) : Prop :=
  if count = 0 then h' = h else Step t (.drop kind (.number count)) h [] h'

theorem Steps.of_dropOf_cons {kind : Drop} {count : Nat} {ms : List (Option Modifier)}
    (hs : Steps t (Options.dropOf kind count :: ms).reduceOption h vs h') :
    ∃ h₁, Dropped t kind count h h₁ ∧ Steps t ms.reduceOption h₁ vs h' := by
  unfold Options.dropOf at hs
  unfold Dropped
  split at hs
  · next h0 => exact ⟨h, by rw [if_pos h0], hs⟩
  · next h0 =>
    simp only [if_neg h0]
    cases hs with
    | cons hstep hrest =>
      cases hstep with
      | drop hn htag => exact ⟨_, .drop hn htag, hrest⟩
      | dropTagged hn htag hw => exact ⟨_, .dropTagged hn htag hw, hrest⟩

/-- The drop of the term itself leaves no label. -/
theorem Dropped.labelled_inTerm {count : Nat} (hd : Dropped t .inTerm count h h')
    (hl : h.Labelled o low high) : h'.Labelled o low high := by
  unfold Dropped at hd
  split at hd
  · rwa [hd]
  · cases hd with
    | drop => exact ⟨hl.tags_eq, hl.reroll, hl.explode⟩
    | dropTagged _ htag => cases htag

theorem Dropped.labelled_lowest (hd : Dropped t .lowest low h h') (hl : h.Labelled o 0 high) :
    h'.Labelled o low high := by
  unfold Dropped at hd
  split at hd
  · next h0 => rwa [hd, h0]
  · next h0 =>
    cases hd with
    | drop _ htag => cases htag
    | dropTagged _ htag =>
      cases htag
      refine hl.tag (l := .dropLowest low) (i := 0) rfl rfl ?_ hl.reroll hl.explode
      rw [Hand.slots, Hand.guard_pos_of_ne_zero h0]
      rfl

theorem Dropped.labelled_highest (hd : Dropped t .highest high h h') (hl : h.Labelled o low 0) :
    h'.Labelled o low high := by
  unfold Dropped at hd
  split at hd
  · next h0 => rwa [hd, h0]
  · next h0 =>
    cases hd with
    | drop _ htag => cases htag
    | dropTagged _ htag =>
      cases htag
      refine hl.tag (l := .dropHighest high) (i := 1) rfl rfl ?_ hl.reroll hl.explode
      rw [Hand.slots, Hand.guard_pos_of_ne_zero h0]
      rfl

theorem Steps.labelled (hs : Steps t ms h vs h') (hl : h.Labelled o low high)
    (hms : ∀ m ∈ ms, (∃ r, o.reroll = some r ∧ m = .reroll (.number r.lte)) ∨
      ∃ e, o.explode = some e ∧ m = .explode (some e)) : h'.Labelled o low high := by
  induction hs with
  | nil => exact hl
  | cons hm _ ih =>
    exact ih (hm.labelled hl (hms _ List.mem_cons_self))
      fun m hm => hms m (List.mem_cons_of_mem _ hm)

end Modifier

theorem Options.labelled_of_steps {o : Options} {t : DiceTerm} {h : Hand} {vs : List Int}
    (hs : Modifier.Steps t (o.modifiersFor t) {} vs h) :
    h.Labelled o (o.dropLowest.elim 0 (·.count)) o.highCount := by
  rw [modifiersFor_eq, droppingModifiers, bind_dropOf, bind_dropOf] at hs
  obtain ⟨_, _, h₀, -, hroll, hdrop⟩ := hs.split
  have hrolled : h₀.Labelled o 0 0 := by
    cases hroll with
    | cons hfirst hrest =>
      exact hrest.labelled hfirst.labelled_first fun m hm => reroll_or_explode_of_mem hm
  obtain ⟨h₁, hterm, hdrop⟩ := hdrop.of_dropOf_cons
  obtain ⟨h₂, hlow, hdrop⟩ := hdrop.of_dropOf_cons
  obtain ⟨h₃, hhigh, hdrop⟩ := hdrop.of_dropOf_cons
  cases hdrop
  exact hhigh.labelled_highest (hlow.labelled_lowest (hterm.labelled_inTerm hrolled))

end DiceRoller
