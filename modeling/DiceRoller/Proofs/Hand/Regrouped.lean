/-
# Drops one after the other, in whatever order

Drops of the lowest and of the highest values may be called for one after the other,
as often as one likes. Each takes the front of what is still kept, in its own order
(`Hand.taken_append_cons`), and all of them together drop what they have taken and
nothing else (`Hand.dropped_dropAll`).

Of all the calls only two numbers matter in the end: how many values were asked for in
each of the two directions (`asked`). This is so because a drop that asks for more than
is left takes what the other direction would have taken: the rolls in order lose `low`
at one end and `high` at the other, whoever comes first (`Hand.Trimmed.dropAll`). So
calls that are put in another order, or put together into one, drop the same
(`Modifier.drops_compose`).

Key definitions: `DropCall`, `Hand.dropAll`, `Hand.taken`, `Modifier.dropEach`, `asked`,
`Regrouped`.
Key theorems: `Hand.dropped_dropAll`, `Hand.Trimmed.dropAll`, `Regrouped.asked_eq`,
`Modifier.drops_compose`.
-/
import DiceRoller.Proofs.Hand.Unambiguous
import Mathlib.Algebra.Order.BigOperators.Group.List
import Mathlib.Data.List.Permutation

namespace DiceRoller

/-- A call for a drop of so many of the highest or the lowest values. -/
structure DropCall where
  num : Int
  highest : Bool
  deriving DecidableEq, Repr

/-! ### Calls one after the other -/

namespace Hand

/-- The hand after the drops that are called for. -/
def dropAll (h : Hand) (cs : List DropCall) : Hand := cs.foldl (fun h c => h.drop c.num c.highest) h

/-- What each of the drops takes. -/
def taken (h : Hand) : List DropCall → List (List Int)
  | [] => []
  | c :: cs => h.selected c.num c.highest :: taken (h.drop c.num c.highest) cs

theorem dropAll_cons (h : Hand) (c : DropCall) (cs : List DropCall) :
    h.dropAll (c :: cs) = (h.drop c.num c.highest).dropAll cs := rfl

theorem dropped_dropAll (h : Hand) (cs : List DropCall) :
    h.dropAll cs = { h with dropped := h.dropped ++ (h.taken cs).flatten } := by
  induction cs generalizing h with
  | nil => simp [dropAll, taken]
  | cons c cs ih => simp [dropAll_cons, ih, taken, drop]

theorem length_taken (h : Hand) (cs : List DropCall) : (h.taken cs).length = cs.length := by
  induction cs generalizing h with
  | nil => rfl
  | cons c cs ih => simp [taken, ih]

theorem taken_append (h : Hand) (cs ds : List DropCall) :
    h.taken (cs ++ ds) = h.taken cs ++ (h.dropAll cs).taken ds := by
  induction cs generalizing h with
  | nil => rfl
  | cons c cs ih => simp [taken, ih, dropAll_cons]

theorem taken_append_cons (h : Hand) (before : List DropCall) (c : DropCall)
    (after : List DropCall) : (h.taken (before ++ c :: after))[before.length]? =
      some ((h.dropAll before).selected c.num c.highest) := by
  rw [taken_append, List.getElem?_append_right (length_taken h before).le, length_taken,
    Nat.sub_self]
  rfl

theorem selected_eq (h : Hand) (num : Int) (highest : Bool) : h.selected num highest =
    (sorted highest h.kept).take (min (max num 0).toNat h.kept.length) := by
  have hnum : (max num 0).toNat = num.toNat := by omega
  rw [hnum, selected, ← length_sorted highest h.kept, ← List.take_take, List.take_length]

end Hand

namespace Modifier

/-- Makes the drops one after the other, and gives what each of them took. -/
def dropEach : List DropCall → Play (List (List Int))
  | [] => pure []
  | c :: cs => do
    let values ← dropValues (.number c.num) c.highest
    let rest ← dropEach cs
    return values :: rest

/-- No call fails, and none looks at the term or the source. -/
theorem dropEach_eq (cs : List DropCall) (d : Draft) (h : Hand) (s : Source) :
    dropEach cs ⟨d, h, s⟩ = .ok (h.taken cs) ⟨d, h.dropAll cs, s⟩ := by
  induction cs generalizing h with
  | nil => rfl
  | cons c cs ih =>
    have hfirst : dropValues (.number c.num) c.highest ⟨d, h, s⟩ =
        .ok (h.selected c.num c.highest) ⟨d, h.drop c.num c.highest, s⟩ := rfl
    exact cons_eq_ok_iff.2 ⟨_, _, _, hfirst, ih _, rfl⟩

end Modifier

/-! ### How much is asked for -/

/-- How many values the calls ask for in one of the directions. -/
def asked (highest : Bool) (cs : List DropCall) : Nat :=
  (cs.map fun c => if c.highest = highest then c.num.toNat else 0).sum

theorem asked_cons (highest : Bool) (c : DropCall) (cs : List DropCall) :
    asked highest (c :: cs) = (if c.highest = highest then c.num.toNat else 0) + asked highest cs :=
  List.sum_cons

theorem asked_append (highest : Bool) (cs ds : List DropCall) :
    asked highest (cs ++ ds) = asked highest cs + asked highest ds := by
  rw [asked, List.map_append, List.sum_append, asked, asked]

/-- Calls in another order, or some calls of one direction put together into one that
asks for the sum of their positive numbers. -/
inductive Regrouped : List DropCall → List DropCall → Prop
  | reorder {cs ds : List DropCall} : cs.Perm ds → Regrouped cs ds
  | merge {cs rest : List DropCall} {highest : Bool} : (∀ c ∈ cs, c.highest = highest) →
      Regrouped (cs ++ rest) (⟨(cs.map fun c => max c.num 0).sum, highest⟩ :: rest)
  | trans {cs ds es : List DropCall} : Regrouped cs ds → Regrouped ds es → Regrouped cs es

theorem asked_merged {highest : Bool} {cs : List DropCall} (hcs : ∀ c ∈ cs, c.highest = highest)
    (direction : Bool) :
    asked direction [⟨(cs.map fun c => max c.num 0).sum, highest⟩] = asked direction cs := by
  induction cs with
  | nil => simp [asked]
  | cons c cs ih =>
    obtain ⟨hc, hrest⟩ := List.forall_mem_cons.1 hcs
    have hpos : 0 ≤ (cs.map fun c => max c.num 0).sum := by
      refine List.sum_nonneg fun n hn => ?_
      obtain ⟨c, -, rfl⟩ := List.mem_map.1 hn
      exact le_max_right _ _
    rw [asked_cons direction c cs, ← ih hrest, hc]
    by_cases hd : highest = direction
    · simp only [asked, List.map_cons, List.map_nil, List.sum_cons, List.sum_nil, hd, if_true]
      omega
    · simp [asked, hd]

/-- However the calls are regrouped, they ask for the same. -/
theorem Regrouped.asked_eq {cs ds : List DropCall} (h : Regrouped cs ds) (highest : Bool) :
    asked highest ds = asked highest cs := by
  induction h with
  | reorder hp => exact (hp.map _).sum_eq.symm
  | merge hcs => rw [← List.singleton_append, asked_append, asked_append, asked_merged hcs]
  | trans _ _ ih ih' => exact ih'.trans ih

/-- All the drops together trim the rolls by what is asked for in each direction. -/
theorem Hand.Trimmed.dropAll {low high : Nat} {h : Hand} (ht : h.Trimmed low high)
    (cs : List DropCall) :
    (h.dropAll cs).Trimmed (low + asked false cs) (high + asked true cs) := by
  induction cs generalizing h low high with
  | nil => exact ht
  | cons c cs ih =>
    obtain ⟨num, highest⟩ := c
    rw [dropAll_cons, asked_cons, asked_cons]
    cases highest with
    | false => simpa [Nat.add_assoc] using ih (ht.drop_low num)
    | true => simpa [Nat.add_assoc] using ih (ht.drop_high num)

theorem Hand.Trimmed.count_dropped_eq {low high : Nat} {h h' : Hand} (ht : h.Trimmed low high)
    (ht' : h'.Trimmed low high) (hrolls : h.rolls = h'.rolls) (v : Int) :
    h.dropped.count v = h'.dropped.count v := by
  have hsorted : sorted false h.kept = sorted false h'.kept := by
    rw [ht.sorted_kept, ht'.sorted_kept, hrolls]
  have hkept : h.kept.Perm h'.kept :=
    (sorted_perm false h.kept).symm.trans (hsorted ▸ sorted_perm false h'.kept)
  rw [ht.count_dropped, ht'.count_dropped, hrolls, hkept.count_eq]

theorem Hand.agrees_of_asked_eq {rolls : List Int} {cs ds : List DropCall}
    (hask : ∀ highest, asked highest ds = asked highest cs) :
    (dropAll { rolls } cs).Agrees (dropAll { rolls } ds) := by
  have hfresh : Trimmed 0 0 { rolls } := .fresh rfl
  have ht := hfresh.dropAll cs
  have ht' := hfresh.dropAll ds
  rw [hask, hask] at ht'
  have hrolls : (dropAll { rolls } cs).rolls = (dropAll { rolls } ds).rolls := by
    rw [dropped_dropAll, dropped_dropAll]
  have hmarked := marked_congr hrolls (ht.count_dropped_eq ht' hrolls)
  refine agrees_of_marked ht ht' hmarked ?_ ?_ ?_ <;> rw [dropped_dropAll, dropped_dropAll]

namespace Modifier

/-- **Drops compose and commute.** Drops on a fresh hand never fail. What they give is
what is dropped, each roll is either kept or dropped, and each drop takes the front of
the values kept until then, in its direction. Calls that are regrouped come to a hand
that agrees in everything, with the same display. -/
theorem drops_compose (d : Draft) (rolls : List Int) (s : Source) (cs : List DropCall) :
    ∃ (taken : List (List Int)) (h : Hand),
      dropEach cs ⟨d, { rolls }, s⟩ = .ok taken ⟨d, h, s⟩ ∧ h.rolls = rolls ∧
      taken.flatten.Perm h.dropped ∧ (h.kept ++ h.dropped).Perm rolls ∧
      (∀ before c after, cs = before ++ c :: after → ∃ h₁ : Hand,
        dropEach before ⟨d, { rolls }, s⟩ = .ok (taken.take before.length) ⟨d, h₁, s⟩ ∧
        taken[before.length]? =
          some ((Hand.sorted c.highest h₁.kept).take (min (max c.num 0).toNat h₁.kept.length))) ∧
      ∀ ds, Regrouped cs ds → ∃ (taken' : List (List Int)) (h' : Hand),
        dropEach ds ⟨d, { rolls }, s⟩ = .ok taken' ⟨d, h', s⟩ ∧ h.Agrees h' ∧
        h'.annotated = h.annotated := by
  have hfresh : Hand.Trimmed 0 0 { rolls } := .fresh rfl
  have hrolls : (Hand.dropAll { rolls } cs).rolls = rolls := by rw [Hand.dropped_dropAll]
  refine ⟨_, _, dropEach_eq cs d { rolls } s, hrolls, ?_, ?_, ?_, ?_⟩
  · rw [Hand.dropped_dropAll]
    exact .refl _
  · have hkept := Hand.kept_append_dropped (hfresh.dropAll cs).count_dropped_le
    rwa [hrolls] at hkept
  · rintro before c after rfl
    refine ⟨Hand.dropAll { rolls } before, ?_, ?_⟩
    · rw [dropEach_eq, Hand.taken_append, List.take_left' (Hand.length_taken _ _)]
    · rw [Hand.taken_append_cons, Hand.selected_eq]
  · intro ds hds
    have hagrees : (Hand.dropAll { rolls } cs).Agrees (Hand.dropAll { rolls } ds) :=
      Hand.agrees_of_asked_eq hds.asked_eq
    refine ⟨_, _, dropEach_eq ds d { rolls } s, hagrees, ?_⟩
    rw [Hand.annotated, Hand.annotated, Hand.marked_congr hagrees.rolls hagrees.dropped]

/-- Two drops of the lowest become one, and come after the one of the highest. -/
theorem drops_compose_four :
    let d : Draft := DiceTerm.draft ⟨1, 5, 6, 0, by decide, by decide, by decide⟩
    let s : Source := .scripted (.ofList [])
    let cs : List DropCall := [⟨1, false⟩, ⟨-2, true⟩, ⟨1, true⟩, ⟨1, false⟩]
    let ds : List DropCall := [⟨1, true⟩, ⟨2, false⟩]
    Regrouped cs ds ∧
      ∃ h, dropEach cs ⟨d, { rolls := [3, 1, 3, 6, 2] }, s⟩ = .ok [[1], [], [6], [2]] ⟨d, h, s⟩ ∧
        (∃ h₁, dropEach (cs.take 2) ⟨d, { rolls := [3, 1, 3, 6, 2] }, s⟩ =
            .ok [[1], []] ⟨d, h₁, s⟩ ∧
          (Hand.sorted true h₁.kept).take (min 1 h₁.kept.length) = [6]) ∧
        ∃ taken' h', dropEach ds ⟨d, { rolls := [3, 1, 3, 6, 2] }, s⟩ = .ok taken' ⟨d, h', s⟩ ∧
          h.Agrees h' ∧ h'.annotated = h.annotated := by
  intro d s cs ds
  have hregrouped : Regrouped cs ds := by
    have hsort : cs.Perm ([⟨1, false⟩, ⟨1, false⟩] ++ [⟨-2, true⟩, ⟨1, true⟩]) := by decide
    have hswap : List.Perm ([⟨2, false⟩] ++ [⟨-2, true⟩, ⟨1, true⟩] : List DropCall)
        ([⟨-2, true⟩, ⟨1, true⟩] ++ [⟨2, false⟩]) := List.perm_append_comm
    exact ((Regrouped.reorder hsort).trans (.merge (by decide))).trans
      ((Regrouped.reorder hswap).trans (.merge (by decide)))
  obtain ⟨taken, h, hrun, -, -, -, hcall, hsame⟩ := drops_compose d [3, 1, 3, 6, 2] s cs
  obtain rfl : taken = [[1], [], [6], [2]] := by
    have heq := (dropEach_eq cs d { rolls := [3, 1, 3, 6, 2] } s).symm.trans hrun
    have htaken : Hand.taken { rolls := [3, 1, 3, 6, 2] } cs = [[1], [], [6], [2]] := by cbv
    cases heq
    exact htaken
  obtain ⟨h₁, hbefore, hthird⟩ := hcall [⟨1, false⟩, ⟨-2, true⟩] ⟨1, true⟩ [⟨1, false⟩] rfl
  exact ⟨hregrouped, h, hrun, ⟨h₁, hbefore, (Option.some.inj hthird).symm⟩, hsame ds hregrouped⟩

end Modifier
end DiceRoller
