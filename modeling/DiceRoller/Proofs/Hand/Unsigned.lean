/-
# A roll does not look at the sign

The dice of a term are rolled by their number, their sides and the drop that is
part of the term. The sign is at the table with the rest of the term, but no step
of play looks at it: at two tables whose terms differ in nothing else every step
does the same (`Play.Blind`). So two such terms are rolled alike by any source,
whether the roll succeeds or fails (`Options.rollTerm_congr`).

That the tables differ in their terms only is one way in which two tables can face each
other; the hands on them may also be related in another way, and the modifiers may
differ. If all the modifiers go alike the rolls do (`Options.rollTerm_alike`).

Key definitions: `Table.Facing`, `Play.Blind`.
Key theorems: `Play.Blind.bind`, `Modifier.apply_blind`, `Options.rollTerm_alike`,
`Options.rollTerm_congr`.
-/
import DiceRoller.Proofs.Hand.Step
import DiceRoller.Proofs.Source.Alike

namespace DiceRoller

/-- Two tables with the same source, a term each, and hands that are related. -/
inductive Table.Facing (t u : DiceTerm) (R : Hand → Hand → Prop) : Table → Table → Prop
  | mk {h h' : Hand} (hands : R h h') (s : Source) :
      Facing t u R ⟨t.draft, h, s⟩ ⟨u.draft, h', s⟩

/-- The step does the same for both terms. -/
def Play.Blind (t u : DiceTerm) {α : Type} (x : Play α) : Prop :=
  Alike (Table.Facing t u Eq) x x Eq (Table.Facing t u Eq)

namespace Play

variable {t u : DiceTerm} {α β : Type} {x : Play α} {k : α → Play β}

theorem sameSource_of_facing {R : Hand → Hand → Prop} (S T : Table)
    (h : Table.Facing t u R S T) : SameSource S T := by
  cases h
  rfl

theorem update_alike {R R' : Hand → Hand → Prop} {f g : Hand → Hand}
    (h : ∀ h h', R h h' → R' (f h) (g h')) :
    Alike (Table.Facing t u R) (update f) (update g) Eq (Table.Facing t u R') := by
  rintro _ _ ⟨hands, s⟩
  exact .ok rfl (.mk (h _ _ hands) s)

theorem ofExcept_alike {R : Hand → Hand → Prop} (c : Except Fault α) :
    Alike (Table.Facing t u R) (ofExcept c) (ofExcept c) Eq (Table.Facing t u R) :=
  Alike.check_of sameSource_of_facing (fun _ => rfl) (fun _ => rfl) (fun _ => rfl) (fun _ => rfl) c

namespace Blind

protected theorem pure (a : α) : Blind t u (pure a : Play α) := Alike.pure rfl

protected theorem throw (f : Fault) : Blind t u (throw f : Play α) :=
  Alike.throw sameSource_of_facing f

theorem ofExcept (c : Except Fault α) : Blind t u (Play.ofExcept c) := ofExcept_alike c

theorem bind (hx : Blind t u x) (hk : ∀ a, Blind t u (k a)) : Blind t u (x >>= k) :=
  Alike.bind hx fun a _ hab => hab ▸ hk a

theorem cons {y : α → Play (List α)} (hx : Blind t u x) (hy : ∀ a, Blind t u (y a)) :
    Blind t u (do let a ← x; let as ← y a; return a :: as) :=
  hx.bind fun a => (hy a).bind fun as => .pure (a :: as)

theorem ite {p : Prop} [Decidable p] {y : Play α} (hx : Blind t u x) (hy : Blind t u y) :
    Blind t u (if p then x else y) := by
  split
  · exact hx
  · exact hy

end Blind

/-! ### Steps of play -/

theorem update_blind (g : Hand → Hand) : Blind t u (update g) :=
  update_alike fun _ _ => congrArg g

theorem hand_blind : Blind t u hand := by
  rintro _ _ ⟨rfl, s⟩
  exact .ok rfl (.mk rfl s)

theorem horizon_blind : Blind t u horizon := by
  rintro _ _ ⟨rfl, s⟩
  exact .ok rfl (.mk rfl s)

theorem number_blind (hn : t.number = u.number) : Blind t u number := by
  rintro _ _ ⟨rfl, s⟩
  rw [number_draft, number_draft]
  exact .ok hn (.mk rfl s)

theorem sides_blind (hm : t.sides = u.sides) : Blind t u sides := by
  rintro _ _ ⟨rfl, s⟩
  rw [sides_draft, sides_draft, hm]
  exact .ok rfl (.mk rfl s)

theorem die_blind (m : Datum) : Blind t u (die m) := by
  rintro _ _ ⟨rfl, s⟩
  unfold die
  cases Source.roll m s with
  | ok v s' => exact .ok rfl (.mk rfl s')
  | error f s' => exact .error rfl

theorem ownDie_blind (hm : t.sides = u.sides) : Blind t u ownDie :=
  (sides_blind hm).bind die_blind

theorem dice_blind (hm : t.sides = u.sides) (n : Nat) : Blind t u (dice n) := by
  induction n with
  | zero => exact .pure []
  | succ n ih => exact (ownDie_blind hm).cons fun _ => ih

theorem again_blind (hm : t.sides = u.sides) : Blind t u again :=
  (ownDie_blind hm).bind fun v => (update_blind _).bind fun _ => .pure v

theorem rerollEach_blind (hm : t.sides = u.sides) (lte : Datum) (rolls : List Int) :
    Blind t u (rerollEach lte rolls) := by
  induction rolls with
  | nil => exact .pure []
  | cons r rs ih =>
    refine (Blind.ofExcept _).bind fun low => ?_
    exact .ite ((again_blind hm).cons fun _ => ih) ((Blind.pure r).cons fun _ => ih)

theorem chain_blind (e : Explode) (m : Datum) (room : Nat) (v : Int) :
    Blind t u (chain e m room v) := by
  induction room generalizing v with
  | zero =>
    refine .ite (.pure []) ((Blind.ofExcept _).bind fun endless => ?_)
    exact .ite (.throw _) (.pure [])
  | succ room ih =>
    refine (Blind.ofExcept _).bind fun triggers => ?_
    exact .ite (.pure []) ((die_blind m).cons fun w => ih w)

theorem extras_blind (e : Explode) (m : Datum) (v : Int) : Blind t u (extras e m v) :=
  horizon_blind.bind fun _ => chain_blind e m _ v

theorem explodeEach_blind (e : Explode) (m : Datum) (rolls : List Int) :
    Blind t u (explodeEach e m rolls) := by
  induction rolls with
  | nil => exact .pure []
  | cons v vs ih =>
    refine (extras_blind e m v).bind fun added => (update_blind _).bind fun _ => ?_
    exact ih.bind fun rest => .pure (v :: (added ++ rest))

end Play

/-! ### Modifiers -/

namespace Modifier

open Play

variable {t u : DiceTerm}

theorem leaveTag_blind (key : Int) (numbers : List Int) (text : String) :
    Blind t u (leaveTag key numbers text) :=
  (Blind.ofExcept _).bind fun _ => update_blind _

theorem applyPick_blind (hm : t.sides = u.sides) (times highest : Datum) :
    Blind t u (applyPick times highest) := by
  refine (Blind.ofExcept _).bind fun n => (dice_blind hm n).bind fun samples => ?_
  refine (update_blind _).bind fun _ => ?_
  split
  · exact .throw _
  · exact update_blind _

theorem applyReroll_blind (hm : t.sides = u.sides) (lte : Datum) : Blind t u (applyReroll lte) :=
  hand_blind.bind fun h => (rerollEach_blind hm lte h.rolls).bind fun _ =>
    (update_blind _).bind fun _ => hand_blind.bind fun _ => .ite (.pure ()) (leaveTag_blind _ _ _)

theorem applyExplode_blind (hm : t.sides = u.sides) (e : Option Explode) :
    Blind t u (applyExplode e) := by
  refine hand_blind.bind fun h => (sides_blind hm).bind fun m => Blind.bind ?_ fun e => ?_
  · cases e with
    | none => exact .throw _
    | some e => exact .pure e
  · exact (explodeEach_blind e m h.rolls).bind fun _ => (update_blind _).bind fun _ =>
      hand_blind.bind fun _ => .ite (.pure ()) (leaveTag_blind _ _ _)

theorem applyDrop_blind (kind : Drop) (num : Datum) : Blind t u (applyDrop kind num) := by
  rw [applyDrop_eq]
  refine (Blind.ofExcept _).bind fun count => (update_blind _).bind fun _ => ?_
  cases kind.tag? with
  | none => exact .pure ()
  | some tag => exact leaveTag_blind _ _ _

/-- Modifiers do the same for dice that are as many and have as many sides. -/
theorem apply_blind (hn : t.number = u.number) (hm : t.sides = u.sides) (m : Modifier) :
    Blind t u m.apply := by
  cases m with
  | roll => exact (number_blind hn).bind fun n => (dice_blind hm n).bind fun _ => update_blind _
  | pick times highest => exact applyPick_blind hm times highest
  | reroll lte => exact applyReroll_blind hm lte
  | explode e => exact applyExplode_blind hm e
  | drop kind num => exact applyDrop_blind kind num

theorem applyAll_blind (hn : t.number = u.number) (hm : t.sides = u.sides) (ms : List Modifier) :
    Blind t u (applyAll ms) := by
  induction ms with
  | nil => exact .pure ()
  | cons m ms ih => exact (apply_blind hn hm m).bind fun _ => ih

end Modifier

namespace Options

variable {t u : DiceTerm}

theorem modifiersFor_congr (o : Options) (hn : t.number = u.number) (hm : t.sides = u.sides)
    (hd : t.drop = u.drop) : o.modifiersFor t = o.modifiersFor u := by
  have happlies (p : MultiRoll) : p.applies t = p.applies u := by
    rw [MultiRoll.applies, MultiRoll.applies, hn, hm]
  simp only [modifiersFor, initialRoll, pick?, happlies, hd]

/-- Two rolls come to hands that are related if the modifiers do. -/
theorem rollTerm_alike {o o' : Options} {R : Hand → Hand → Prop} {s : Source}
    (h : EndsAlike Eq (Table.Facing t u R)
      (Modifier.applyAll (o.modifiersFor t) ⟨t.draft, {}, s⟩)
      (Modifier.applyAll (o'.modifiersFor u) ⟨u.draft, {}, s⟩)) :
    EndsAlike R Eq (o.rollTerm t s) (o'.rollTerm u s) := by
  rcases h.fails_or_gives with ⟨f, S, T, hS, hT, hs⟩ | ⟨_, _, S, T, hS, hT, -, hands, s'⟩
  · rw [rollTerm, rollTerm, hS, hT]
    exact .error hs
  · rw [rollTerm, rollTerm, hS, hT]
    exact .ok hands rfl

/-- Terms that differ in their signs only are rolled alike. -/
theorem rollTerm_congr (o : Options) (hn : t.number = u.number) (hm : t.sides = u.sides)
    (hd : t.drop = u.drop) : o.rollTerm t = o.rollTerm u := by
  funext s
  have hall : EndsAlike Eq Eq (o.rollTerm t s) (o.rollTerm u s) := by
    refine rollTerm_alike ?_
    rw [modifiersFor_congr o hn hm hd]
    exact Modifier.applyAll_blind hn hm (o.modifiersFor u) _ _ (.mk rfl s)
  rcases hall.fails_or_gives with ⟨f, s₁, s₂, h₁, h₂, hs⟩ | ⟨h, _, s₁, _, h₁, h₂, rfl, rfl⟩
  · obtain rfl : s₁ = s₂ := hs
    rw [h₁, h₂]
  · rw [h₁, h₂]

end Options
end DiceRoller
