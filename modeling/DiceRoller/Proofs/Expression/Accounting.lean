/-
# Where the values drawn for an expression go

The terms of an expression draw from one source, one after the other. `Deals`
says what each of them drew: a constant nothing, and dice the values with which
the steps of their roll were made. So on a script every value that is passed
belongs to exactly one term, and has its place in the hand of that
(`evalTerms_accounts`).

Key definitions: `Part.draws`, `Part.Accounts`, `Part.MadeOf`, `Deals`.
Key theorems: `rollTerms_deals`, `Deals.scripted`, `evalTerms_accounts`.
-/
import DiceRoller.Proofs.Expression.Reading
import DiceRoller.Proofs.Hand.Balance
import Mathlib.Algebra.GroupWithZero.Nat

namespace DiceRoller

/-! ### What the parts drew -/

namespace Part

/-- How many values were drawn for the part. -/
def draws (o : Options) : Part → Nat
  | constant _ => 0
  | dice t h =>
    (if (o.pickOf t).isSome then h.samples.length else t.number) + h.rerolled + h.exploded

/-- The values drawn for the part all have their place in it. -/
def Accounts (o : Options) : Part → List Int → Prop
  | constant _, drawn => drawn = []
  | dice t h, drawn => h.Balanced o t drawn

/-- The part is made of the values: dice are rolled in steps that draw them. -/
def MadeOf (o : Options) : Part → List Int → Prop
  | constant _, vs => vs = []
  | dice t h, vs => Modifier.Steps t (o.modifiersFor t) {} vs h

theorem MadeOf.accounts {o : Options} {part : Part} {vs : List Int} (h : part.MadeOf o vs) :
    part.Accounts o vs := by
  cases part with
  | constant c => exact h
  | dice t hand => exact Options.balanced_of_steps h

theorem Accounts.length_eq {o : Options} {part : Part} {drawn : List Int}
    (ha : part.Accounts o drawn) : drawn.length = part.draws o := by
  cases part with
  | constant c =>
    obtain rfl : drawn = [] := ha
    rfl
  | dice t h => exact Hand.Balanced.length_drawn ha

end Part

/-- The parts drew the values from the first source one after the other, and
left the second one. -/
inductive Deals (o : Options) : Source → List Part → List (List Int) → Source → Prop
  | nil {s : Source} : Deals o s [] [] s
  | constant {c : ConstantTerm} {s s' : Source} {parts : List Part} {drawn : List (List Int)} :
      Deals o s parts drawn s' → Deals o s (.constant c :: parts) ([] :: drawn) s'
  | dice {t : DiceTerm} {h : Hand} {s s₁ s' : Source} {vs : List Int} {parts : List Part}
      {drawn : List (List Int)} : Modifier.Steps t (o.modifiersFor t) {} vs h →
      s.Gives t.sides vs s₁ → Deals o s₁ parts drawn s' →
      Deals o s (.dice t h :: parts) (vs :: drawn) s'

section

variable {o : Options} {s s' : Source} {terms : List Term} {parts : List Part}
  {drawn : List (List Int)} {T T' : Trace}

theorem rollTerms_deals (hok : rollTerms o terms T = .ok parts T') :
    ∃ drawn, Deals o T.source parts drawn T'.source := by
  induction terms generalizing T parts with
  | nil =>
    cases hok
    exact ⟨[], .nil⟩
  | cons t ts ih =>
    obtain ⟨part, T₁, parts, hpart, hparts, rfl⟩ := cons_eq_ok_iff.1 hok
    obtain ⟨drawn, hd⟩ := ih hparts
    cases t with
    | constant c =>
      obtain ⟨rfl, rfl⟩ := rollPart_constant.1 hpart
      exact ⟨[] :: drawn, .constant hd⟩
    | dice t =>
      obtain ⟨h, s₁, hroll, rfl, rfl⟩ := rollPart_dice.1 hpart
      obtain ⟨vs, hs, hg⟩ := Options.rollTerm_of_ok hroll
      exact ⟨vs :: drawn, .dice hs hg hd⟩

theorem Deals.madeOf (hd : Deals o s parts drawn s') :
    List.Forall₂ (Part.MadeOf o) parts drawn := by
  induction hd with
  | nil => exact .nil
  | constant _ ih => exact .cons rfl ih
  | dice hs _ _ ih => exact .cons hs ih

theorem Deals.accounts (hd : Deals o s parts drawn s') :
    List.Forall₂ (Part.Accounts o) parts drawn :=
  hd.madeOf.imp fun _ _ h => h.accounts

theorem length_flatten_of_accounts (ha : List.Forall₂ (Part.Accounts o) parts drawn) :
    drawn.flatten.length = (parts.map (Part.draws o)).sum := by
  induction ha with
  | nil => rfl
  | cons hp _ ih =>
    rw [List.flatten_cons, List.length_append, hp.length_eq, ih, List.map_cons, List.sum_cons]

theorem Deals.scripted (hd : Deals o s parts drawn s') {script : Script}
    (hs : s = .scripted script) : ∃ rest, script.pending = drawn.flatten ++ rest ∧
      s' = .scripted ⟨drawn.flatten.reverse ++ script.passed, rest⟩ := by
  induction hd generalizing script with
  | nil => exact ⟨script.pending, rfl, hs⟩
  | constant _ ih => exact ih hs
  | @dice _ _ _ _ _ vs _ drawn _ hg _ ih =>
    subst hs
    obtain ⟨rest₁, hpending, -, rfl⟩ := Source.gives_scripted_iff.1 hg
    obtain ⟨rest, hrest, rfl⟩ := ih rfl
    have hrest' : rest₁ = drawn.flatten ++ rest := hrest
    refine ⟨rest, ?_, ?_⟩
    · rw [hpending, hrest', List.flatten_cons, List.append_assoc]
    · rw [List.flatten_cons, List.reverse_append, List.append_assoc]

/-- On a script, an evaluation passes exactly the values that its parts drew,
and these go to the parts one after the other, each of which accounts for its
own. -/
theorem evalTerms_accounts {expression : String} {script : Script} {log : List LogEntry}
    (hok : evalTerms o expression ⟨.scripted script, log⟩ = .ok parts T') :
    ∃ (script' : Script) (drawn : List (List Int)), T'.source = .scripted script' ∧
      script'.values = script.values ∧
      script'.index = script.index + (parts.map (Part.draws o)).sum ∧
      script.pending = drawn.flatten ++ script'.pending ∧
      List.Forall₂ (Part.Accounts o) parts drawn := by
  obtain ⟨terms, -, hroll⟩ := evalTerms_eq_ok_iff.1 hok
  obtain ⟨drawn, hd⟩ := rollTerms_deals hroll
  obtain ⟨rest, hpending, hs'⟩ := hd.scripted rfl
  refine ⟨_, drawn, hs', ?_, ?_, hpending, hd.accounts⟩
  · rw [Script.values, Script.values, hpending, List.reverse_append, List.reverse_reverse,
      List.append_assoc]
  · rw [Script.index, Script.index, List.length_append, List.length_reverse,
      length_flatten_of_accounts hd.accounts, Nat.add_comm]

/-- Two samples, one value that the die adds, and a constant, which takes none
of the script. -/
theorem evalTerms_accounts_advantage :
    let o : Options := { explode := some ⟨.atLeast 5, 1⟩, advantage := some ⟨6, 2, by decide⟩ }
    ∃ parts T' drawn, evalTerms o "d6-2" ⟨.scripted (.ofList [2, 5, 3, 9]), []⟩ = .ok parts T' ∧
      T'.source = .scripted ⟨[3, 5, 2], [9]⟩ ∧ drawn.flatten = [2, 5, 3] ∧
      List.Forall₂ (Part.Accounts o) parts drawn := by
  intro o
  let t : DiceTerm := ⟨1, 1, 6, 0, by decide, by decide, by decide⟩
  have hread : readTerms "d6-2" = .ok [.dice t, .constant ⟨-1, 2⟩] := by decide +kernel
  obtain ⟨h, hsteps⟩ : ∃ h, Modifier.Steps t (o.modifiersFor t) {} [2, 5, 3] h := by
    rw [Options.modifiersFor_eq]
    have hadds : Explode.Adds ⟨.atLeast 5, 1⟩ t.sides 5 [3] :=
      ⟨1, fun _ => rfl, .next rfl (.full (by decide))⟩
    exact ⟨_, @Modifier.Steps.cons _ _ _ _ _ _ [2, 5] [3] (.pick rfl rfl rfl)
      (@Modifier.Steps.cons _ _ _ _ _ _ [3] [] (.explode (.cons hadds .nil)
        (.tagged (by decide) (by decide +kernel))) .nil)⟩
  have hterm := (Options.rollTerm_consumes hsteps (by decide)).full [] [9]
  obtain ⟨T', hT', hok⟩ : ∃ T', T'.source = .scripted ⟨[3, 5, 2], [9]⟩ ∧
      evalTerms o "d6-2" ⟨.scripted (.ofList [2, 5, 3, 9]), []⟩ =
        .ok [.dice t h, .constant ⟨-1, 2⟩] T' :=
    ⟨_, rfl, evalTerms_eq_ok_iff.2 ⟨_, hread, cons_eq_ok_iff.2
      ⟨_, _, _, rollPart_dice.2 ⟨h, _, hterm, rfl, rfl⟩, rfl, rfl⟩⟩⟩
  obtain ⟨script', drawn, hsource, -, -, hpending, haccounts⟩ := evalTerms_accounts hok
  cases hT'.symm.trans hsource
  have hdrawn : [2, 5, 3] ++ [9] = drawn.flatten ++ [9] := hpending
  exact ⟨_, T', drawn, hok, hT', (List.append_cancel_right hdrawn).symm, haccounts⟩

end

end DiceRoller
