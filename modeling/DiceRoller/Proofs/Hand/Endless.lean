/-
# Explosions that never stop

With an unbounded explosion every face of a die triggers another die, and there is
no cap: a chain would have to go on for ever (`Explode.Chain.not_unbounded`). So
when the modifiers come to the explosion, with at least one roll on the table,
whatever is left of a script is not enough, and the roll ends where the script is
stuck (`applyAll_explode_of_unbounded`). Before that there is only the first roll
and perhaps a reroll. Drops and their tags are never reached.

So no script lets a term be rolled, and the fault is one of the source
(`rollTerm_of_unbounded`) unless a number that is too long has to be written
before: in the tag of the reroll, or in the message about a value that is out of
range (`Options.CutShort`).

Every other explosion stops on some script, if the tags may be written that are
left whatever is rolled (`exists_rollTerm_of_tagsWritable`).

Key definitions: `Options.Halts`, `Options.CutShort`.
Key theorems: `Explode.Chain.not_unbounded`, `applyAll_explode_of_unbounded`,
`rollTerm_of_unbounded`, `exists_rollTerm_of_tagsWritable`.
-/
import DiceRoller.Proofs.Hand.Rollable
import DiceRoller.Proofs.Hand.Stuck

namespace DiceRoller

/-! ### Chains -/

namespace Explode

variable {e : Explode} {sides : Int}

theorem cap_eq_zero_of_unbounded (hu : e.unbounded = true) : e.cap = 0 := by
  unfold unbounded at hu
  split at hu
  · cases hu
  · simp at hu
    exact hu.1

/-- No chain of faces is complete. -/
theorem Chain.not_unbounded {room : Nat} {v : Int} {ws : List Int} (hc : e.Chain sides room v ws)
    (hv : 1 ≤ v) (hws : ∀ w ∈ ws, 1 ≤ w) : ¬ e.unbounded = true := by
  intro hu
  induction hc with
  | rest ht =>
    rw [triggers_of_unbounded hu hv] at ht
    cases ht
  | full hcap => exact hcap (cap_eq_zero_of_unbounded hu)
  | next _ _ ih => exact ih (hws _ List.mem_cons_self) fun w hw => hws w (List.mem_cons_of_mem _ hw)

end Explode

theorem Explodes.not_unbounded {e : Explode} {sides : Int} {rolls vs rolls' : List Int}
    (he : Explodes e sides rolls vs rolls') (hne : rolls ≠ []) (hrolls : ∀ r ∈ rolls, 1 ≤ r)
    (hvs : ∀ v ∈ vs, 1 ≤ v) : ¬ e.unbounded = true := by
  cases he with
  | nil => exact absurd rfl hne
  | cons ha _ =>
    obtain ⟨room, -, hc⟩ := ha
    exact hc.not_unbounded (hrolls _ List.mem_cons_self) fun w hw =>
      hvs w (List.mem_append_left _ hw)

/-! ### Modifiers up to the explosion -/

namespace Options

open Modifier

variable {o : Options} {t : DiceTerm} {h : Hand} {p : Script} {f : Fault} {T : Table} {e : Explode}
  {drawn : List Int}

/-- The table is left because the script is stuck after some more values, or
because of the tag of a reroll that was made: what is rerolled, or how many of the
values drawn were, may not be written. -/
def Halts (o : Options) (t : DiceTerm) (drawn : List Int) (p : Script) (f : Fault) (T : Table) :
    Prop :=
  ∃ vs h q, Source.Gives t.sides (.scripted p) vs (.scripted q) ∧ T = .playing t.draft h q ∧
    (q.Stuck t.sides f ∨ f = .numeralTooLongToWrite ∧ ∃ r, o.reroll = some r ∧ 1 ≤ r.lte ∧
      (Numeral.writable r.lte = false ∨ Numeral.writable (drawn ++ vs).length = false))

theorem Halts.of_gives {vs : List Int} {q : Script}
    (hg : Source.Gives t.sides (.scripted p) vs (.scripted q))
    (hh : o.Halts t (drawn ++ vs) q f T) : o.Halts t drawn p f T := by
  obtain ⟨ws, h', q', hg', hT, hwhy⟩ := hh
  rw [List.append_assoc] at hwhy
  exact ⟨vs ++ ws, h', q', hg.append hg', hT, hwhy⟩

theorem applyAll_explode_of_unbounded (hu : e.unbounded = true) (hne : h.rolls ≠ [])
    (hrolls : ∀ r ∈ h.rolls, 1 ≤ r) (ms : List Modifier) (p : Script) :
    ∃ f T, applyAll (.explode (some e) :: ms) (.playing t.draft h p) = .error f T ∧
      o.Halts t drawn p f T := by
  cases hx : Play.explodeEach e (.number t.sides) h.rolls (.playing t.draft h p) with
  | ok rolls T =>
    obtain ⟨vs, s, he, hg, -⟩ := Play.explodeEach_of_ok hx
    exact absurd hu (he.not_unbounded hne hrolls fun v hv => (hg.mem_range v hv).1)
  | error f T =>
    obtain ⟨vs, h', q, hg, hstuck, hT⟩ := (Play.explodeEach_drawsOnly t e _).error hx
    have happly : (Modifier.explode (some e)).apply (.playing t.draft h p) = .error f T := by
      rw [apply, applyExplode, Play.hand_bind, bind_of_ok Play.sides_draft, chosen_bind]
      exact bind_of_error hx
    exact ⟨f, T, bind_of_error happly, vs, h', q, hg, hT, .inl hstuck⟩

theorem faces_of_balanced (hb : h.Balanced o t drawn) (hdrawn : ∀ v ∈ drawn, 1 ≤ v) :
    h.rolls ≠ [] ∧ ∀ r ∈ h.rolls, 1 ≤ r := by
  obtain ⟨-, hlength, again, left, hp, -⟩ := hb
  have hnumber := t.one_le_number
  refine ⟨fun hnil => ?_, fun r hr => hdrawn r (hp.mem_iff.2 ?_)⟩
  · rw [hnil, List.length_nil] at hlength
    omega
  · simp [hr]

/-- A reroll whose tag may not be written has replaced a face, and so it asked for
faces. -/
theorem halts_of_reroll {r : Reroll} (hr : o.reroll = some r) (hrr : h.rerolled = 0)
    (hrolls : ∀ v ∈ h.rolls, 1 ≤ v)
    (herr : (Modifier.reroll (.number r.lte)).apply (.playing t.draft h p) = .error f T) :
    o.Halts t drawn p f T := by
  obtain ⟨vs, hfails⟩ := reroll_of_error herr
  cases hfails with
  | stuck _ hg hstuck => exact ⟨vs, _, _, hg, rfl, .inl hstuck⟩
  | tag hlow hg hcount hw =>
    rw [hrr, Nat.zero_add] at hcount hw
    have hlte : 1 ≤ r.lte := by
      obtain ⟨again, hp, hlength, hle⟩ := hlow.perm
      obtain ⟨v, hv⟩ := List.exists_mem_of_length_pos (hlength ▸ Nat.pos_of_ne_zero hcount)
      have hface : 1 ≤ v := by
        rcases List.mem_append.1 (hp.mem_iff.2 (List.mem_append_right _ hv)) with hv | hv
        · exact hrolls v hv
        · exact (hg.mem_range v hv).1
      exact Int.le_trans hface (hle v hv)
    refine ⟨vs, _, _, hg, rfl, .inr ⟨rfl, r, hr, hlte, hw.imp id (length_unwritable ?_)⟩⟩
    simp

/-- After the first roll there may be a reroll, and then the explosion is next. -/
theorem applyAll_later_of_unbounded (he : o.explode = some e) (hu : e.unbounded = true)
    (hb : h.Balanced o t drawn) (hdrawn : ∀ v ∈ drawn, 1 ≤ v) (hrr : h.rerolled = 0)
    (p : Script) : ∃ f T, applyAll (o.laterModifiers t) (.playing t.draft h p) = .error f T ∧
      o.Halts t drawn p f T := by
  obtain ⟨hne, hrolls⟩ := faces_of_balanced hb hdrawn
  unfold laterModifiers
  rw [he]
  cases hr : o.reroll with
  | none => exact applyAll_explode_of_unbounded hu hne hrolls _ p
  | some r =>
    cases hfirst : (Modifier.reroll (.number r.lte)).apply (.playing t.draft h p) with
    | error f T =>
      exact ⟨f, T, bind_of_error hfirst, halts_of_reroll hr hrr hrolls hfirst⟩
    | ok u T =>
      obtain ⟨vs, s, h₁, hstep, hg, rfl⟩ := apply_of_ok hfirst
      obtain ⟨q, rfl, -⟩ := hg.exists_script
      obtain ⟨hne₁, hrolls₁⟩ := faces_of_balanced (hstep.balanced (.reroll hr) hb) fun v hv => by
        rcases List.mem_append.1 hv with hv | hv
        · exact hdrawn v hv
        · exact (hg.mem_range v hv).1
      obtain ⟨f, T, herr, hh⟩ :=
        applyAll_explode_of_unbounded (o := o) (t := t) hu hne₁ hrolls₁ (o.droppingModifiers t) q
      exact ⟨f, T, (bind_of_ok hfirst).trans herr, .of_gives hg hh⟩

theorem rerolled_of_initialRoll {vs : List Int} (hs : Step t (o.initialRoll t) {} vs h) :
    h.rerolled = 0 := by
  rcases o.initialRoll_cases t with ⟨-, hm⟩ | ⟨highest, times, -, -, -, hm⟩ <;> rw [hm] at hs <;>
    cases hs <;> rfl

theorem halts_of_unbounded (he : o.explode = some e) (hu : e.unbounded = true) (t : DiceTerm)
    (p : Script) : ∃ f T, o.rollTerm t (.scripted p) = .error f T.source ∧ o.Halts t [] p f T := by
  obtain ⟨f, T, herr, hh⟩ : ∃ f T,
      applyAll (o.modifiersFor t) (.playing t.draft {} p) = .error f T ∧ o.Halts t [] p f T := by
    rw [modifiersFor_eq_cons]
    cases hfirst : (o.initialRoll t).apply (.playing t.draft {} p) with
    | error f T =>
      obtain ⟨vs, h', q, hg, hstuck, hT⟩ := initialRoll_of_error hfirst
      exact ⟨f, T, bind_of_error hfirst, vs, h', q, hg, hT, .inl hstuck⟩
    | ok u T =>
      obtain ⟨vs, s, h, hstep, hg, rfl⟩ := apply_of_ok hfirst
      obtain ⟨q, rfl, -⟩ := hg.exists_script
      obtain ⟨f, T, herr, hh⟩ := applyAll_later_of_unbounded he hu hstep.balanced_first
        (fun v hv => (hg.mem_range v hv).1) (rerolled_of_initialRoll hstep) q
      exact ⟨f, T, (bind_of_ok hfirst).trans herr, .of_gives hg hh⟩
  refine ⟨f, T, ?_, hh⟩
  rw [rollTerm, herr]

/-! ### The fault -/

/-- Something that is too long to be written can end a roll before its script is
used up: what is rerolled, the sides or a value in the message that the value is
out of range, or the number of rerolls, of which there are no more than values. -/
inductive CutShort (o : Options) (t : DiceTerm) (p : Script) : Prop
  | reroll {r : Reroll} : o.reroll = some r → 1 ≤ r.lte → Numeral.writable r.lte = false →
      CutShort o t p
  | sides : Numeral.writable t.sides = false → CutShort o t p
  | value {v : Int} : v ∈ p.pending → Numeral.writable v = false → CutShort o t p
  | length : Numeral.writable p.pending.length = false → CutShort o t p

theorem Halts.fault (hh : o.Halts t [] p f T) :
    f.OfSource ∨ f = .numeralTooLongToWrite ∧ o.CutShort t p := by
  obtain ⟨vs, h, q, hg, -, hstuck | ⟨rfl, r, hr, hlte, hw | hw⟩⟩ := hh
  · by_cases hsides : Numeral.writable t.sides = true
    · rcases hstuck.fault hsides with hf | ⟨rfl, v, hv, hw⟩
      · exact .inl hf
      · have hmem : v ∈ q.pending := hv.subset (List.mem_singleton.2 rfl)
        refine .inr ⟨rfl, .value ?_ hw⟩
        rw [hg.pending_eq]
        exact List.mem_append_right vs hmem
    · cases hstuck with
      | exhausted => exact .inl (.inl rfl)
      | outOfRange =>
        unfold Numeral.raise
        split
        · exact .inl (.inr rfl)
        · exact .inr ⟨rfl, .sides (Bool.not_eq_true _ ▸ hsides)⟩
  · exact .inr ⟨rfl, .reroll hr hlte hw⟩
  · refine .inr ⟨rfl, .length (length_unwritable ?_ hw)⟩
    rw [hg.pending_eq]
    simp

/-- With an unbounded explosion a roll ends with a fault of the source, unless a
number is too long. -/
theorem rollTerm_of_unbounded (he : o.explode = some e) (hu : e.unbounded = true) (t : DiceTerm)
    (p : Script) : ∃ f s, o.rollTerm t (.scripted p) = .error f s ∧
      (f.OfSource ∨ f = .numeralTooLongToWrite ∧ o.CutShort t p) := by
  obtain ⟨f, T, herr, hh⟩ := halts_of_unbounded he hu t p
  exact ⟨f, T.source, herr, hh.fault⟩

/-! ### Explosions that stop -/

/-- Without an unbounded explosion a script lets the term be rolled, if its tags
may be written; a reroll of ones also writes the number of dice. -/
theorem exists_rollTerm_of_tagsWritable (hw : o.TagsWritable t)
    (hn : ∀ r, o.reroll = some r → 1 ≤ r.lte → Numeral.writable t.number = true)
    (hu : ∀ e, o.explode = some e → e.unbounded = false) :
    ∃ values h s, o.rollTerm t (.scripted (.ofList values)) = .ok h s := by
  obtain ⟨n, h, hroll⟩ := rollTerm_ones hw hn hu
  have hok := hroll [] []
  rw [List.append_nil] at hok
  exact ⟨_, h, _, hok⟩

end Options
end DiceRoller
