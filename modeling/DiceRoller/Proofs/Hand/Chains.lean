/-
# Exploding rolls form chains

An explosion replaces each roll by a chain: the roll itself and the dice that it
adds. A chain is complete if every value in it but the last one triggers, and if
it ends where it has to, at a value that does not trigger or at the cap
(`Explode.Chained.Complete`). When an explosion succeeds, the new rolls are
complete chains of the old ones, one after the other, and what the chains add is
what was drawn, in order.

On a script an explosion fails in one of two ways. Where the script is stuck in a
chain, the chains before it have been counted, and the rolls and the tags are
those from before (`Play.explodeEach_of_error`). Otherwise it is the tag that
fails, because a number in it may not be written; it is left last, so the rolls
have been replaced by then (`Modifier.not_rolls_kept_of_long_threshold`).

Key definitions: `Explode.Chained`, `Explode.Chained.Complete`,
`Explode.Chained.Unfinished`.
Key theorems: `Explode.Adds.complete`, `Explodes.exists_chains`,
`Explode.Chained.length_added_le`, `Play.explodeEach_of_error`,
`Modifier.explode_chains`.
-/
import DiceRoller.Proofs.Hand.Stuck

namespace DiceRoller

namespace Explode

/-! ### Chains -/

/-- A die and the dice that it has added. -/
structure Chained where
  die : Int
  added : List Int
  deriving DecidableEq, Repr

namespace Chained

/-- The values of the chain. -/
def values (c : Chained) : List Int := c.die :: c.added

/-- The value that the chain has come to. -/
def last (c : Chained) : Int := c.values.getLast (List.cons_ne_nil _ _)

/-- The values of chains, one chain after the other. -/
def allValues (cs : List Chained) : List Int := cs.flatMap values

/-- What chains have added, one chain after the other. -/
def allAdded (cs : List Chained) : List Int := cs.flatMap added

/-- Every value but the last one triggers, and the last one does not, unless the
chain is as long as the cap lets it be. -/
structure Complete (e : Explode) (sides : Int) (c : Chained) : Prop where
  triggers : ∀ v ∈ c.values.dropLast, e.triggers sides v = true
  length_le : 0 < e.cap → c.added.length ≤ e.cap
  ends : e.triggers sides c.last = false ∨ 0 < e.cap ∧ c.added.length = e.cap

/-- Every value triggers, and the cap lets one more die be added. -/
structure Unfinished (e : Explode) (sides : Int) (c : Chained) : Prop where
  triggers : ∀ v ∈ c.values, e.triggers sides v = true
  length_lt : 0 < e.cap → c.added.length < e.cap

end Chained

section

variable {e : Explode} {sides v : Int} {ws : List Int} {room : Nat} {cs : List Chained}

theorem Chain.triggers_of_mem (hc : e.Chain sides room v ws) :
    ∀ w ∈ (v :: ws).dropLast, e.triggers sides w = true := by
  induction hc with
  | rest => nofun
  | full => nofun
  | next ht _ ih =>
    rw [List.dropLast_cons_cons]
    exact List.forall_mem_cons.2 ⟨ht, ih⟩

theorem Chain.ends (hc : e.Chain sides room v ws) :
    e.triggers sides ((v :: ws).getLast (List.cons_ne_nil _ _)) = false ∨
      e.cap ≠ 0 ∧ ws.length = room := by
  induction hc with
  | rest ht => exact .inl ht
  | full hcap => exact .inr ⟨hcap, rfl⟩
  | next _ _ ih =>
    rw [List.getLast_cons_cons]
    exact ih.imp id fun ⟨hcap, hlength⟩ => ⟨hcap, congrArg Nat.succ hlength⟩

theorem Adds.complete (ha : e.Adds sides v ws) : Chained.Complete e sides ⟨v, ws⟩ := by
  obtain ⟨room, hroom, hc⟩ := ha
  refine ⟨hc.triggers_of_mem, fun hcap => ?_, hc.ends.imp id fun ⟨hcap, hlength⟩ => ?_⟩
  · rw [← hroom (Nat.ne_of_gt hcap)]
    exact hc.length_le
  · exact ⟨Nat.pos_of_ne_zero hcap, hlength.trans (hroom hcap)⟩

theorem Chained.length_added_le (hcs : ∀ c ∈ cs, c.Complete e sides) (hcap : 0 < e.cap) :
    (allAdded cs).length ≤ e.cap * cs.length := by
  induction cs with
  | nil => exact Nat.zero_le _
  | cons c cs ih =>
    obtain ⟨hc, hrest⟩ := List.forall_mem_cons.1 hcs
    calc (allAdded (c :: cs)).length
        = c.added.length + (allAdded cs).length := List.length_append
      _ ≤ e.cap + e.cap * cs.length := Nat.add_le_add (hc.length_le hcap) (ih hrest)
      _ = e.cap * (c :: cs).length := by rw [List.length_cons, Nat.mul_succ, Nat.add_comm]

end

end Explode

open Explode (Chained)

theorem Explodes.exists_chains {e : Explode} {sides : Int} {rolls vs rolls' : List Int}
    (hx : Explodes e sides rolls vs rolls') :
    ∃ cs : List Chained, cs.map Chained.die = rolls ∧ (∀ c ∈ cs, c.Complete e sides) ∧
      Chained.allAdded cs = vs ∧ Chained.allValues cs = rolls' := by
  induction hx with
  | nil => exact ⟨[], rfl, nofun, rfl, rfl⟩
  | @cons v ws rs vs rs' ha _ ih =>
    obtain ⟨cs, rfl, hcs, rfl, rfl⟩ := ih
    exact ⟨⟨v, ws⟩ :: cs, rfl, List.forall_mem_cons.2 ⟨ha.complete, hcs⟩, rfl, rfl⟩

/-! ### Explosions that fail -/

namespace Play

variable {d : Draft} {h : Hand} {p : Script} {f : Fault} {T : Table} {e : Explode} {m : Int}

/-- Explosions fail within the chain of one of the rolls. The chains before it are
complete and counted; the one that fails is not counted. -/
theorem explodeEach_of_error {rolls : List Int}
    (herr : explodeEach e (.number m) rolls (.playing d h p) = .error f T) :
    ∃ (done left vs rolls' : List Int) (c : Chained) (q : Script),
      rolls = done ++ c.die :: left ∧ Explodes e m done vs rolls' ∧ c.Unfinished e m ∧
        Source.Gives m (.scripted p) (vs ++ c.added) (.scripted q) ∧ q.Stuck m f ∧
        T = .playing d { h with exploded := h.exploded + vs.length } q := by
  induction rolls generalizing h p with
  | nil => cases herr
  | cons v rs ih =>
    rcases bind_eq_error_iff.1 herr with hchain | ⟨ws, _, hchain, hrest⟩
    · obtain ⟨ws, q, hws, hlt, hg, hstuck, rfl⟩ := extras_of_error hchain
      exact ⟨[], rs, [], [], ⟨v, ws⟩, q, rfl, .nil, ⟨hws, hlt⟩, hg, hstuck, rfl⟩
    · obtain ⟨ha, s, hg, rfl⟩ := extras_of_ok hchain
      obtain ⟨p₁, rfl, -⟩ := hg.exists_script
      rw [update_bind] at hrest
      rcases bind_eq_error_iff.1 hrest with hrest | ⟨_, _, -, hpure⟩
      · obtain ⟨done, left, vs, rolls', c, q, rfl, hx, hc, hg', hstuck, rfl⟩ := ih hrest
        refine ⟨v :: done, left, ws ++ vs, _, c, q, rfl, .cons ha hx, hc, ?_, hstuck, ?_⟩
        · rw [List.append_assoc]
          exact hg.append hg'
        · rw [List.length_append, Nat.add_assoc]
      · cases hpure

end Play

namespace Modifier

variable {t : DiceTerm} {h : Hand} {p : Script} {f : Fault} {T : Table} {e : Explode}

/-- The explosion of a hand has failed after so many chains. -/
inductive ExplodeFails (t : DiceTerm) (e : Explode) (h : Hand) (p : Script) (cs : List Chained) :
    Fault → Table → Prop
  /-- The script is stuck in the chain of the next roll; the rolls are what they were. -/
  | stuck {c : Chained} {left : List Int} {q : Script} {f : Fault} :
      h.rolls = cs.map Chained.die ++ c.die :: left → c.Unfinished e t.sides →
      Source.Gives t.sides (.scripted p) (Chained.allAdded cs ++ c.added) (.scripted q) →
      q.Stuck t.sides f →
      ExplodeFails t e h p cs f
        (.playing t.draft { h with exploded := h.exploded + (Chained.allAdded cs).length } q)
  /-- All rolls have exploded, and then a number of the tag may not be written. -/
  | tag {q : Script} :
      h.rolls = cs.map Chained.die →
      Source.Gives t.sides (.scripted p) (Chained.allAdded cs) (.scripted q) →
      (e.threshold.numbers.all Numeral.writable = false ∨
        Numeral.writable (h.exploded + (Chained.allAdded cs).length : Nat) = false) →
      ExplodeFails t e h p cs .numeralTooLongToWrite
        (.playing t.draft
          { h with
            rolls := Chained.allValues cs
            exploded := h.exploded + (Chained.allAdded cs).length } q)

/-- An explosion that succeeds makes chains of the rolls, and leaves at most a tag
besides. -/
theorem explode_of_ok (hok : (Modifier.explode (some e)).apply (.playing t.draft h p) = .ok () T) :
    ∃ (cs : List Chained) (rest : List Int) (tags : Tags), cs.map Chained.die = h.rolls ∧
      (∀ c ∈ cs, c.Complete e t.sides) ∧ p.pending = Chained.allAdded cs ++ rest ∧
      T = .playing t.draft
        { h with
          rolls := Chained.allValues cs
          exploded := h.exploded + (Chained.allAdded cs).length
          tags }
        ⟨(Chained.allAdded cs).reverse ++ p.passed, rest⟩ := by
  obtain ⟨vs, s, h', hstep, hg, rfl⟩ := apply_of_ok hok
  cases hstep with
  | explode hx hn =>
    obtain ⟨cs, hdice, hcs, rfl, rfl⟩ := hx.exists_chains
    obtain ⟨tags, rfl⟩ := hn.eq_tags
    obtain ⟨rest, hpending, -, rfl⟩ := Source.gives_scripted_iff.1 hg
    exact ⟨cs, rest, tags, hdice, hcs, hpending, rfl⟩

theorem explode_of_error
    (herr : (Modifier.explode (some e)).apply (.playing t.draft h p) = .error f T) :
    ∃ cs : List Chained, (∀ c ∈ cs, c.Complete e t.sides) ∧ ExplodeFails t e h p cs f T := by
  rw [apply, applyExplode, Play.hand_bind, bind_of_ok Play.sides_draft, chosen_bind] at herr
  rcases bind_eq_error_iff.1 herr with hchain | ⟨rolls, _, hchain, hnote⟩
  · obtain ⟨done, left, vs, rolls', c, q, hsplit, hx, hc, hg, hstuck, rfl⟩ :=
      Play.explodeEach_of_error hchain
    obtain ⟨cs, rfl, hcs, rfl, -⟩ := hx.exists_chains
    exact ⟨cs, hcs, .stuck hsplit hc hg hstuck⟩
  · obtain ⟨vs, s, hx, hg, rfl⟩ := Play.explodeEach_of_ok hchain
    obtain ⟨cs, hdice, hcs, rfl, rfl⟩ := hx.exists_chains
    obtain ⟨q, rfl, -⟩ := hg.exists_script
    rw [Play.update_bind, Play.hand_bind] at hnote
    obtain ⟨rfl, -, hlong, rfl⟩ := note_of_error hnote
    exact ⟨cs, hcs, .tag hdice.symm hg hlong⟩

/-- **An explosion makes chains.** If it succeeds, the new rolls are complete chains
of the old ones in order, what the chains add are the values drawn in order, and
with a cap there are at most so many for each roll. If it fails, the tags are what
they were, and only what complete chains have added is counted. The rolls are what
they were, too, if the script is stuck; they are not if the tag cannot be written. -/
theorem explode_chains (t : DiceTerm) (h : Hand) (e : Explode) (p : Script) :
    (∀ T, (Modifier.explode (some e)).apply (.playing t.draft h p) = .ok () T →
      ∃ (cs : List Chained) (rest : List Int) (tags : Tags),
        cs.map Chained.die = h.rolls ∧ (∀ c ∈ cs, c.Complete e t.sides) ∧
        p.pending = Chained.allAdded cs ++ rest ∧
        T = .playing t.draft
          { h with
            rolls := Chained.allValues cs
            exploded := h.exploded + (Chained.allAdded cs).length
            tags }
          ⟨(Chained.allAdded cs).reverse ++ p.passed, rest⟩ ∧
        (0 < e.cap → (Chained.allAdded cs).length ≤ e.cap * h.rolls.length)) ∧
      ∀ f T, (Modifier.explode (some e)).apply (.playing t.draft h p) = .error f T →
        ∃ cs : List Chained, (∀ c ∈ cs, c.Complete e t.sides) ∧ T.hand.tags = h.tags ∧
          T.hand.exploded = h.exploded + (Chained.allAdded cs).length ∧
          ExplodeFails t e h p cs f T := by
  refine ⟨fun T hok => ?_, fun f T herr => ?_⟩
  · obtain ⟨cs, rest, tags, hdice, hcs, hpending, hT⟩ := explode_of_ok hok
    refine ⟨cs, rest, tags, hdice, hcs, hpending, hT, fun hcap => ?_⟩
    rw [← hdice, List.length_map]
    exact Chained.length_added_le hcs hcap
  · obtain ⟨cs, hcs, hfails⟩ := explode_of_error herr
    refine ⟨cs, hcs, ?_, ?_, hfails⟩ <;> cases hfails <;> rfl

/-- The first die adds as many dice as the cap allows, the second one none, and the
third one a die that does not trigger. -/
theorem explode_chains_capped :
    let t : DiceTerm := ⟨1, 3, 6, 0, by decide, by decide, by decide⟩
    let p : Script := .ofList [6, 6, 3, 1]
    ∃ T, (Modifier.explode (some ⟨.max, 2⟩)).apply (.playing t.draft { rolls := [6, 2, 6] } p) =
        .ok () T ∧ T.hand.rolls = [6, 6, 6, 2, 6, 3] ∧
      ∃ cs : List Chained, cs.map Chained.die = [6, 2, 6] ∧
        (∀ c ∈ cs, c.Complete ⟨.max, 2⟩ t.sides) ∧ Chained.allValues cs = T.hand.rolls := by
  intro t p
  have hx : Explodes ⟨.max, 2⟩ t.sides [6, 2, 6] [6, 6, 3] [6, 6, 6, 2, 6, 3] :=
    .cons ⟨2, fun _ => rfl, .next rfl (.next rfl (.full (by decide)))⟩
      (.cons ⟨2, fun _ => rfl, .rest rfl⟩
        (.cons ⟨2, fun _ => rfl, .next rfl (.rest rfl)⟩ .nil))
  obtain ⟨h', hstep, hrolls⟩ : ∃ h', Step t (.explode (some ⟨.max, 2⟩)) { rolls := [6, 2, 6] }
      [6, 6, 3] h' ∧ h'.rolls = [6, 6, 6, 2, 6, 3] :=
    ⟨_, .explode hx (.tagged (by decide) (by decide +kernel)), rfl⟩
  have hok := (hstep.consumes (by decide)).full [] [1]
  obtain ⟨cs, rest, tags, hdice, hcs, -, hT, -⟩ := (explode_chains t _ _ _).1 _ hok
  refine ⟨_, hok, hrolls, cs, hdice, hcs, ?_⟩
  rw [hT]

/-- The number in the tag is too long, and the rolls have been replaced already. -/
theorem not_rolls_kept_of_long_threshold :
    let e : Explode := ⟨.atLeast (-(Nat.pow 10 Numeral.digitLimit : Nat)), 1⟩
    let t : DiceTerm := ⟨1, 1, 6, 0, by decide, by decide, by decide⟩
    ∃ T, (Modifier.explode (some e)).apply (.playing t.draft { rolls := [3] } (.ofList [4])) =
      .error .numeralTooLongToWrite T ∧ T.hand.rolls = [3, 4] ∧ T.hand.rolls ≠ [3] := by
  have hlimit := not_writable_limit
  -- which number it is does not matter, and it is too large to be looked at
  generalize Nat.pow 10 Numeral.digitLimit = n at hlimit ⊢
  intro e t
  have hlow : e.triggers t.sides 3 = true := by
    rw [Explode.triggers]
    exact decide_eq_true (by omega)
  have hx : Explodes e t.sides [3] ([4] ++ []) (3 :: ([4] ++ [])) :=
    .cons ⟨1, fun _ => rfl, .next hlow (.full Nat.one_ne_zero)⟩ .nil
  have hroll := (Play.explodeEach_consumes (d := t.draft) hx (by decide) { rolls := [3] }).full [] []
  have hlong : (e.threshold.numbers ++ [(1 : Int)]).all Numeral.writable = false := by
    have hneg : Numeral.writable (-(n : Int)) = false := by
      rw [← hlimit, Numeral.writable, Int.natAbs_neg]
      rfl
    have hnumbers : e.threshold.numbers = [-(n : Int)] := rfl
    rw [hnumbers, List.all_append, List.all_cons, hneg]
    rfl
  have herr : (Modifier.explode (some e)).apply
      (.playing t.draft { rolls := [3] } (.ofList [4])) = .error .numeralTooLongToWrite
        (.playing t.draft { rolls := [3, 4], exploded := 1 } ⟨[4], []⟩) := by
    rw [apply, applyExplode, Play.hand_bind, bind_of_ok Play.sides_draft, chosen_bind]
    refine (bind_of_ok hroll).trans ?_
    rw [Play.update_bind, Play.hand_bind]
    exact leaveTag_eq_error_iff.2 ⟨rfl, hlong, rfl⟩
  exact ⟨_, herr, rfl, by decide⟩

end Modifier
end DiceRoller
