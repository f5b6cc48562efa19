/-
# Why a roll fails

At the table a step of play draws dice of the term, and as long as it draws from
a script it fails only where the script is stuck; `Play.DrawsOnly` says so of a
step, and goes over from steps to those that are made of them. An endless chain
is no exception: a chain without a cap has more room than the script has values.

A modifier fails also where it leaves a tag with a number that may not be
written. The number is one of the options, or it counts dice that were drawn
(`Options.Fails`). So if the numbers of the options and the
sums of the script may be written, a roll fails with a fault of the source, and
with no other one (`Options.fault_of_rollTerm`).

Key definitions: `Play.DrawsOnly`, `Options.tagNumbers`, `Options.Fails`.
Key theorems: `Play.DrawsOnly.bind`, `Play.explodeEach_drawsOnly`,
`Options.rollTerm_of_error`, `Options.fault_of_rollTerm`.
-/
import DiceRoller.Proofs.Hand.Balance
import DiceRoller.Proofs.Source.Stuck

namespace DiceRoller

/-! ### Steps that fail only where the script is stuck -/

/-- On a script the step draws dice of the term, whether it succeeds or fails,
and it fails only where the script is stuck. -/
structure Play.DrawsOnly (t : DiceTerm) {α : Type} (x : Play α) : Prop where
  ok {h : Hand} {p : Script} {a : α} {T : Table} : x (.playing t.draft h p) = .ok a T →
    ∃ vs h' q, Source.Gives t.sides (.scripted p) vs (.scripted q) ∧ T = .playing t.draft h' q
  error {h : Hand} {p : Script} {f : Fault} {T : Table} : x (.playing t.draft h p) = .error f T →
    ∃ vs h' q, Source.Gives t.sides (.scripted p) vs (.scripted q) ∧ q.Stuck t.sides f ∧
      T = .playing t.draft h' q

namespace Play

variable {t : DiceTerm} {α β : Type} {x : Play α} {k : α → Play β}

namespace DrawsOnly

theorem quiet (hx : ∀ h p, ∃ a h', x (.playing t.draft h p) = .ok a (.playing t.draft h' p)) :
    DrawsOnly t x where
  ok {h p a T} hok := by
    obtain ⟨a', h', hquiet⟩ := hx h p
    rw [hquiet] at hok
    cases hok
    exact ⟨[], h', p, .nil, rfl⟩
  error {h p f T} herr := by
    obtain ⟨a', h', hquiet⟩ := hx h p
    rw [hquiet] at herr
    cases herr

protected theorem pure (a : α) : DrawsOnly t (pure a : Play α) := quiet fun h _ => ⟨a, h, rfl⟩

theorem bind (hx : DrawsOnly t x) (hk : ∀ a, DrawsOnly t (k a)) : DrawsOnly t (x >>= k) where
  ok hok := by
    obtain ⟨a, _, hfirst, hrest⟩ := bind_eq_ok_iff.1 hok
    obtain ⟨vs, h₁, q₁, hg, rfl⟩ := hx.ok hfirst
    obtain ⟨ws, h', q, hg', rfl⟩ := (hk a).ok hrest
    exact ⟨vs ++ ws, h', q, hg.append hg', rfl⟩
  error herr := by
    rcases bind_eq_error_iff.1 herr with hfirst | ⟨a, _, hfirst, hrest⟩
    · exact hx.error hfirst
    · obtain ⟨vs, h₁, q₁, hg, rfl⟩ := hx.ok hfirst
      obtain ⟨ws, h', q, hg', hstuck, rfl⟩ := (hk a).error hrest
      exact ⟨vs ++ ws, h', q, hg.append hg', hstuck, rfl⟩

end DrawsOnly

theorem update_drawsOnly (t : DiceTerm) (g : Hand → Hand) : DrawsOnly t (update g) :=
  .quiet fun h _ => ⟨(), g h, rfl⟩

variable {d : Draft} {h : Hand} {p : Script} {f : Fault} {T : Table} {m v : Int} {e : Explode}
  {rolls : List Int}

theorem die_of_error (herr : die (.number m) (.playing d h p) = .error f T) :
    p.Stuck m f ∧ T = .playing d h p := by
  cases hdraw : Source.draw 1 m (.scripted p) with
  | ok v s =>
    have hok : die (.number m) (.playing d h p) = .ok v ⟨d, h, s⟩ :=
      die_eq_ok_iff.2 ⟨s, hdraw, rfl⟩
    cases hok.symm.trans herr
  | error g s =>
    obtain ⟨hstuck, rfl⟩ := Source.stuck_of_draw hdraw
    have hfails : die (.number m) (.playing d h p) = .error g (.playing d h p) := by
      have hroll : Source.roll (.number m) (Table.playing d h p).source =
          .error g (.scripted p) := hdraw
      rw [die, hroll]
    cases hfails.symm.trans herr
    exact ⟨hstuck, rfl⟩

theorem die_drawsOnly (t : DiceTerm) : DrawsOnly t (die (.number t.sides)) where
  ok hok := by
    obtain ⟨s, hdraw, rfl⟩ := die_eq_ok_iff.1 hok
    obtain ⟨rest, -, -, -, rfl⟩ := Source.draw_scripted_iff.1 hdraw
    exact ⟨_, _, _, .cons hdraw .nil, rfl⟩
  error herr := by
    obtain ⟨hstuck, rfl⟩ := die_of_error herr
    exact ⟨[], _, _, .nil, hstuck, rfl⟩

theorem ownDie_drawsOnly (t : DiceTerm) : DrawsOnly t ownDie where
  ok hok := by
    rw [ownDie, bind_of_ok sides_draft] at hok
    exact (die_drawsOnly t).ok hok
  error herr := by
    rw [ownDie, bind_of_ok sides_draft] at herr
    exact (die_drawsOnly t).error herr

theorem dice_drawsOnly (t : DiceTerm) (n : Nat) : DrawsOnly t (dice n) := by
  induction n with
  | zero => exact .pure []
  | succ n ih => exact (ownDie_drawsOnly t).bind fun v => ih.bind fun vs => .pure (v :: vs)

theorem again_of_error {t : DiceTerm} (herr : again (.playing t.draft h p) = .error f T) :
    p.Stuck t.sides f ∧ T = .playing t.draft h p := by
  rcases bind_eq_error_iff.1 herr with hdie | ⟨v, _, -, hcount⟩
  · rw [ownDie, bind_of_ok sides_draft] at hdie
    exact die_of_error hdie
  · cases hcount

/-- Rerolls fail where the script is stuck, at one of the low rolls. The low rolls
before it have been counted. -/
theorem rerollEach_of_error {t : DiceTerm} {lte : Int}
    (herr : rerollEach (.number lte) rolls (.playing t.draft h p) = .error f T) :
    ∃ vs q, vs.length < rolls.countP (· ≤ lte) ∧
      Source.Gives t.sides (.scripted p) vs (.scripted q) ∧ q.Stuck t.sides f ∧
      T = .playing t.draft { h with rerolled := h.rerolled + vs.length } q := by
  induction rolls generalizing h p with
  | nil => cases herr
  | cons r rs ih =>
    rw [rerollEach, Datum.atMost_number] at herr
    by_cases hlow : r ≤ lte
    · rw [decide_eq_true hlow] at herr
      have hcount : (r :: rs).countP (· ≤ lte) = rs.countP (· ≤ lte) + 1 := by simp [hlow]
      rw [hcount]
      rcases cons_eq_error_iff.1 herr with hagain | ⟨v, _, hagain, hrest⟩
      · obtain ⟨hstuck, rfl⟩ := again_of_error hagain
        exact ⟨[], p, Nat.succ_pos _, .nil, hstuck, rfl⟩
      · obtain ⟨s, hdraw, rfl⟩ := again_eq_ok_iff.1 hagain
        obtain ⟨rest, -, -, -, rfl⟩ := Source.draw_scripted_iff.1 hdraw
        obtain ⟨vs, q, hlt, hg, hstuck, rfl⟩ := ih hrest
        refine ⟨v :: vs, q, Nat.succ_lt_succ hlt, .cons hdraw hg, hstuck, ?_⟩
        rw [List.length_cons, Nat.add_assoc, Nat.add_comm 1]
    · rw [decide_eq_false hlow] at herr
      have hcount : (r :: rs).countP (· ≤ lte) = rs.countP (· ≤ lte) := by simp [hlow]
      rw [hcount]
      have hstay : (do
          let vs ← rerollEach (.number lte) rs
          return r :: vs : Play (List Int)) (.playing t.draft h p) = .error f T := herr
      rcases bind_eq_error_iff.1 hstay with hrest | ⟨vs, _, -, hpure⟩
      · exact ih hrest
      · cases hpure

/-- A chain that has enough room, if it has no cap, fails only where the script
is stuck. What it has drawn until then triggers, and leaves room for more. -/
theorem chain_of_error {room : Nat} (hroom : e.cap = 0 → p.pending.length < room)
    (herr : chain e (.number m) room v (.playing d h p) = .error f T) :
    ∃ ws q, (∀ w ∈ v :: ws, e.triggers m w = true) ∧ ws.length < room ∧
      Source.Gives m (.scripted p) ws (.scripted q) ∧ q.Stuck m f ∧ T = .playing d h q := by
  induction room generalizing v p with
  | zero =>
    have hcap : (e.cap != 0) = true := by
      rw [bne_iff_ne]
      intro h0
      exact Nat.not_lt_zero _ (hroom h0)
    rw [chain, if_pos hcap] at herr
    cases herr
  | succ room ih =>
    rw [chain, Explode.triggersFor_number] at herr
    cases ht : e.triggers m v with
    | false =>
      rw [ht] at herr
      cases herr
    | true =>
      rw [ht] at herr
      rcases cons_eq_error_iff.1 herr with hdie | ⟨w, _, hdie, hrest⟩
      · obtain ⟨hstuck, rfl⟩ := die_of_error hdie
        exact ⟨[], p, List.forall_mem_singleton.2 ht, Nat.succ_pos _, .nil, hstuck, rfl⟩
      · obtain ⟨s, hdraw, rfl⟩ := die_eq_ok_iff.1 hdie
        obtain ⟨rest, hpending, -, -, rfl⟩ := Source.draw_scripted_iff.1 hdraw
        have hleft : e.cap = 0 → rest.length < room := by
          intro h0
          have hlt := hroom h0
          rw [hpending, List.length_cons] at hlt
          exact Nat.lt_of_succ_lt_succ hlt
        obtain ⟨ws, q, hws, hlt, hg, hstuck, rfl⟩ := ih hleft hrest
        exact ⟨w :: ws, q, List.forall_mem_cons.2 ⟨ht, hws⟩, Nat.succ_lt_succ hlt, .cons hdraw hg,
          hstuck, rfl⟩

theorem extras_of_error (herr : extras e (.number m) v (.playing d h p) = .error f T) :
    ∃ ws q, (∀ w ∈ v :: ws, e.triggers m w = true) ∧ (0 < e.cap → ws.length < e.cap) ∧
      Source.Gives m (.scripted p) ws (.scripted q) ∧ q.Stuck m f ∧ T = .playing d h q := by
  rw [extras_eq] at herr
  have hroom : e.cap = 0 → p.pending.length < if e.cap = 0 then
      (Source.scripted p).horizon else e.cap := by
    intro h0
    rw [if_pos h0]
    exact Nat.lt_succ_self _
  obtain ⟨ws, q, hws, hlt, hg, hstuck, hT⟩ := chain_of_error hroom herr
  refine ⟨ws, q, hws, fun hcap => ?_, hg, hstuck, hT⟩
  rwa [if_neg (Nat.ne_of_gt hcap)] at hlt

theorem extras_drawsOnly (t : DiceTerm) (e : Explode) (v : Int) :
    DrawsOnly t (extras e (.number t.sides) v) where
  ok hok := by
    obtain ⟨-, s, hg, rfl⟩ := extras_of_ok hok
    obtain ⟨q, rfl, -⟩ := hg.exists_script
    exact ⟨_, _, q, hg, rfl⟩
  error {h p f T} herr := by
    obtain ⟨ws, q, -, -, hg, hstuck, rfl⟩ := extras_of_error herr
    exact ⟨ws, h, q, hg, hstuck, rfl⟩

theorem explodeEach_drawsOnly (t : DiceTerm) (e : Explode) (rolls : List Int) :
    DrawsOnly t (explodeEach e (.number t.sides) rolls) := by
  induction rolls with
  | nil => exact .pure []
  | cons v vs ih =>
    refine (extras_drawsOnly t e v).bind fun added => ?_
    refine (update_drawsOnly t _).bind fun _ => ?_
    exact ih.bind fun rest => .pure (v :: (added ++ rest))

end Play

/-! ### Modifiers that fail -/

namespace Modifier

variable {key : Int} {numbers : List Int} {text : String} {f : Fault} {T U : Table}

theorem exists_best? (highest : Bool) {samples : List Int} (hne : samples ≠ []) :
    ∃ v, best? highest samples = some v := by
  cases highest with
  | true => exact Option.isSome_iff_exists.1 (List.isSome_max?_of_ne_nil hne)
  | false => exact Option.isSome_iff_exists.1 (List.isSome_min?_of_ne_nil hne)

theorem leaveTag_eq_error_iff : leaveTag key numbers text T = .error f U ↔
    f = .numeralTooLongToWrite ∧ numbers.all Numeral.writable = false ∧ U = T := by
  rw [leaveTag, Numeral.publish]
  cases hw : numbers.all Numeral.writable with
  | true =>
    constructor
    · intro herr
      cases herr
    · rintro ⟨-, hw', -⟩
      cases hw'
  | false =>
    constructor
    · intro herr
      cases herr
      exact ⟨rfl, rfl, rfl⟩
    · rintro ⟨rfl, -, rfl⟩
      rfl

theorem note_of_error {count : Nat}
    (herr : (if count = 0 then pure () else leaveTag key (numbers ++ [(count : Int)]) text :
      Play Unit) T = .error f U) : f = .numeralTooLongToWrite ∧ count ≠ 0 ∧
        (numbers.all Numeral.writable = false ∨ Numeral.writable count = false) ∧ U = T := by
  split at herr
  · cases herr
  · next hcount =>
    obtain ⟨rfl, hw, rfl⟩ := leaveTag_eq_error_iff.1 herr
    rw [List.all_append, Bool.and_eq_false_iff] at hw
    exact ⟨rfl, hcount, hw.imp id fun hw => by simpa using hw, rfl⟩

variable {t : DiceTerm} {h : Hand} {p : Script} {lte : Int}

/-- The reroll of a hand has failed after so many values were drawn for it. -/
inductive RerollFails (t : DiceTerm) (lte : Int) (h : Hand) (p : Script) (vs : List Int) :
    Fault → Table → Prop
  /-- The script is stuck at a low roll; the rolls are what they were. -/
  | stuck {q : Script} {f : Fault} : vs.length < h.rolls.countP (· ≤ lte) →
      Source.Gives t.sides (.scripted p) vs (.scripted q) → q.Stuck t.sides f →
      RerollFails t lte h p vs f
        (.playing t.draft { h with rerolled := h.rerolled + vs.length } q)
  /-- All low rolls have been replaced, and then a number of the tag may not be written. -/
  | tag {rolls : List Int} {q : Script} : Rerolls (.number lte) h.rolls vs rolls →
      Source.Gives t.sides (.scripted p) vs (.scripted q) → h.rerolled + vs.length ≠ 0 →
      (Numeral.writable lte = false ∨
        Numeral.writable ((h.rerolled + vs.length : Nat) : Int) = false) →
      RerollFails t lte h p vs .numeralTooLongToWrite
        (.playing t.draft { h with rolls, rerolled := h.rerolled + vs.length } q)

theorem reroll_of_error
    (herr : (Modifier.reroll (.number lte)).apply (.playing t.draft h p) = .error f T) :
    ∃ vs, RerollFails t lte h p vs f T := by
  rw [apply, applyReroll, Play.hand_bind] at herr
  rcases bind_eq_error_iff.1 herr with hroll | ⟨rolls, _, hroll, hnote⟩
  · obtain ⟨vs, q, hlt, hg, hstuck, rfl⟩ := Play.rerollEach_of_error hroll
    exact ⟨vs, .stuck hlt hg hstuck⟩
  · obtain ⟨vs, s, hrr, hg, rfl⟩ := Play.rerollEach_eq_ok_iff.1 hroll
    obtain ⟨q, rfl, -⟩ := hg.exists_script
    rw [Play.update_bind, Play.hand_bind] at hnote
    obtain ⟨rfl, hcount, hw, rfl⟩ := note_of_error hnote
    have hw' : Numeral.writable lte = false ∨
        Numeral.writable ((h.rerolled + vs.length : Nat) : Int) = false :=
      hw.imp_left fun hlte => by simpa [Datum.numbers] using hlte
    exact ⟨vs, .tag hrr hg hcount hw'⟩

end Modifier

namespace Options

open Modifier

variable {o : Options} {t : DiceTerm} {m : Modifier} {ms : List Modifier} {h : Hand} {p : Script}
  {f : Fault} {T : Table} {drawn : List Int}

/-- The numbers of the options that tags are made of. -/
def tagNumbers (o : Options) : List Int :=
  o.dropLowest.toList.map (fun d => (d.count : Int)) ++
    o.dropHighest.toList.map (fun d => (d.count : Int)) ++ o.reroll.toList.map Reroll.lte ++
    o.explode.toList.flatMap fun e => e.threshold.numbers

theorem initialRoll_of_error
    (herr : (o.initialRoll t).apply (.playing t.draft h p) = .error f T) :
    ∃ vs h' q, Source.Gives t.sides (.scripted p) vs (.scripted q) ∧ q.Stuck t.sides f ∧
      T = .playing t.draft h' q := by
  rcases o.initialRoll_cases t with ⟨-, hm⟩ | ⟨highest, times, -, -, htimes, hm⟩
  · rw [hm, apply, applyRoll, bind_of_ok Play.number_draft] at herr
    have hroll : Play.DrawsOnly t (do
        let rolls ← Play.dice t.number
        Play.update ({ · with rolls })) :=
      (Play.dice_drawsOnly t _).bind fun rolls => Play.update_drawsOnly t _
    exact hroll.error herr
  · rw [hm] at herr
    rcases bind_eq_error_iff.1 herr with hfirst | ⟨n, _, hfirst, hrest⟩
    · cases hfirst
    · cases hfirst
      rcases bind_eq_error_iff.1 hrest with hdice | ⟨samples, _, hdice, hpick⟩
      · exact (Play.dice_drawsOnly t _).error hdice
      · -- there are samples, so one of them is the best one
        obtain ⟨hlength, s, -, rfl⟩ := Play.dice_eq_ok_iff.1 hdice
        have hne : samples ≠ [] := by
          rintro rfl
          rw [List.length_nil] at hlength
          exact Nat.not_lt_zero 1 (hlength.trans rfl ▸ htimes)
        obtain ⟨v, hv⟩ := exists_best? (Datum.truth highest).holds hne
        rw [Play.update_bind, hv] at hpick
        cases hpick

theorem mem_tagNumbers_of_drop {kind : Drop} {count : Nat}
    (hm : .drop kind (.number count) ∈ o.laterModifiers t) (htag : kind.tag? ≠ none) :
    (count : Int) ∈ o.tagNumbers := by
  have hpart : ∀ {part : Option DropCount} {kind' : Drop},
      (part.bind fun d => dropOf kind' d.count) = some (.drop kind (.number count)) →
      (count : Int) ∈ part.toList.map fun d => (d.count : Int) := by
    intro part kind' hd
    obtain ⟨d, rfl, hdrop⟩ := Option.bind_eq_some_iff.1 hd
    have hcount : (count : Int) = d.count := by
      obtain ⟨-, hdrop⟩ := dropOf_eq_some_iff.1 hdrop
      cases hdrop
      rfl
    rw [hcount]
    exact List.mem_singleton.2 rfl
  rcases List.mem_append.1 hm with hm | hm
  · rcases reroll_or_explode_of_mem hm with ⟨r, -, hr⟩ | ⟨e, -, he⟩
    · cases hr
    · cases he
  · obtain ⟨m?, hm?, heq⟩ := List.mem_filterMap.1 hm
    obtain rfl : m? = some (.drop kind (.number count)) := heq
    simp only [List.mem_cons, List.not_mem_nil, or_false] at hm?
    simp only [tagNumbers, List.mem_append]
    rcases hm? with hd | hd | hd
    · obtain ⟨-, hdrop⟩ := dropOf_eq_some_iff.1 hd.symm
      cases hdrop
      exact absurd rfl htag
    · exact .inl (.inl (.inl (hpart hd.symm)))
    · exact .inl (.inl (.inr (hpart hd.symm)))

theorem tagNumbers_unwritable {numbers : List Int} (hmem : ∀ n ∈ numbers, n ∈ o.tagNumbers)
    (hw : numbers.all Numeral.writable = false) : o.tagNumbers.all Numeral.writable = false := by
  obtain ⟨n, hn, hn'⟩ := List.all_eq_false.1 hw
  exact List.all_eq_false.2 ⟨n, hmem n hn, hn'⟩

/-- A count of dice that may not be written is that of too many values drawn. -/
theorem length_unwritable {count : Nat} {vs : List Int} (hle : count ≤ vs.length)
    (hw : Numeral.writable count = false) : Numeral.writable vs.length = false := by
  refine Bool.eq_false_iff.2 fun hlength => ?_
  have hcount := writable_of_le (Int.natCast_nonneg count) (Int.ofNat_le.2 hle) hlength
  exact Bool.false_ne_true (hw.symm.trans hcount)

/-- The table is left after more values have been drawn with the script, because
the script is stuck, or because of a number in a tag: one of the options, or one
that counts values drawn. -/
def Fails (o : Options) (t : DiceTerm) (drawn : List Int) (p : Script) (f : Fault) (T : Table) :
    Prop :=
  ∃ vs h q, Source.Gives t.sides (.scripted p) vs (.scripted q) ∧ T = .playing t.draft h q ∧
    (q.Stuck t.sides f ∨ f = .numeralTooLongToWrite ∧
      (o.tagNumbers.all Numeral.writable = false ∨ Numeral.writable (drawn ++ vs).length = false))

theorem Fails.of_gives {vs : List Int} {q : Script}
    (hg : Source.Gives t.sides (.scripted p) vs (.scripted q))
    (hf : o.Fails t (drawn ++ vs) q f T) : o.Fails t drawn p f T := by
  obtain ⟨ws, h', q', hg', hT, hwhy⟩ := hf
  rw [List.append_assoc] at hwhy
  exact ⟨vs ++ ws, h', q', hg.append hg', hT, hwhy⟩

theorem Fails.of_drawsOnly {α : Type} {x : Play α} (hx : Play.DrawsOnly t x)
    (herr : x (.playing t.draft h p) = .error f T) : o.Fails t drawn p f T := by
  obtain ⟨vs, h', q, hg, hstuck, hT⟩ := hx.error herr
  exact ⟨vs, h', q, hg, hT, .inl hstuck⟩

/-- A tag with numbers of the options and a count of values drawn. -/
theorem Fails.of_note {key : Int} {numbers : List Int} {count : Nat} {text : String}
    (hnumbers : ∀ n ∈ numbers, n ∈ o.tagNumbers) (hcount : count ≤ drawn.length)
    (herr : (if count = 0 then pure () else leaveTag key (numbers ++ [(count : Int)]) text :
      Play Unit) (.playing t.draft h p) = .error f T) : o.Fails t drawn p f T := by
  obtain ⟨rfl, -, hw, rfl⟩ := note_of_error herr
  refine ⟨[], h, p, .nil, rfl, .inr ⟨rfl, hw.imp (tagNumbers_unwritable hnumbers) ?_⟩⟩
  rw [List.append_nil]
  exact length_unwritable hcount

theorem fails_of_reroll {r : Reroll} (hr : o.reroll = some r) (hb : h.Balanced o t drawn)
    (herr : (Modifier.reroll (.number r.lte)).apply (.playing t.draft h p) = .error f T) :
    o.Fails t drawn p f T := by
  obtain ⟨vs, hfails⟩ := reroll_of_error herr
  cases hfails with
  | stuck _ hg hstuck => exact ⟨vs, _, _, hg, rfl, .inl hstuck⟩
  | tag _ hg _ hw =>
    refine ⟨vs, _, _, hg, rfl, .inr ⟨rfl, hw.imp (fun hlte => ?_) (length_unwritable ?_)⟩⟩
    · have hmem : r.lte ∈ o.tagNumbers := by simp [tagNumbers, hr]
      exact List.all_eq_false.2 ⟨r.lte, hmem, by simp [hlte]⟩
    · have hdrawn := hb.length_drawn
      rw [List.length_append]
      omega

theorem fails_of_explode {e : Explode} (he : o.explode = some e) (hb : h.Balanced o t drawn)
    (herr : (Modifier.explode (some e)).apply (.playing t.draft h p) = .error f T) :
    o.Fails t drawn p f T := by
  rw [apply, applyExplode, Play.hand_bind, bind_of_ok Play.sides_draft, chosen_bind] at herr
  rcases bind_eq_error_iff.1 herr with hroll | ⟨rolls, _, hroll, hnote⟩
  · exact .of_drawsOnly (Play.explodeEach_drawsOnly t e _) hroll
  · obtain ⟨vs, s, -, hg, rfl⟩ := Play.explodeEach_of_ok hroll
    obtain ⟨q, rfl, -⟩ := hg.exists_script
    rw [Play.update_bind, Play.hand_bind] at hnote
    refine .of_gives hg (.of_note (fun n hn => ?_) ?_ hnote)
    · simp [tagNumbers, he, hn]
    · have hdrawn := hb.length_drawn
      show h.exploded + vs.length ≤ _
      rw [List.length_append]
      omega

theorem fails_of_drop {kind : Drop} {count : Nat}
    (hm : .drop kind (.number count) ∈ o.laterModifiers t)
    (herr : (Modifier.drop kind (.number count)).apply (.playing t.draft h p) = .error f T) :
    o.Fails t drawn p f T := by
  rw [apply, applyDrop_eq] at herr
  rcases bind_eq_error_iff.1 herr with hcount | ⟨n, _, hcount, hrest⟩
  · cases hcount
  · cases hcount
    rw [Play.update_bind] at hrest
    cases htag : kind.tag? with
    | none =>
      rw [htag] at hrest
      cases hrest
    | some tag =>
      rw [htag] at hrest
      obtain ⟨rfl, hw, rfl⟩ := leaveTag_eq_error_iff.1 hrest
      have htag' : kind.tag? ≠ none := by
        rw [htag]
        exact Option.some_ne_none _
      refine ⟨[], _, p, .nil, rfl, .inr ⟨rfl, .inl (tagNumbers_unwritable (fun n hn => ?_) hw)⟩⟩
      obtain rfl := List.mem_singleton.1 hn
      exact mem_tagNumbers_of_drop hm htag'

/-- Later modifiers fail together as one of them does, after what those before
it have drawn. -/
theorem fails_of_applyAll (hms : ∀ m ∈ ms, m ∈ o.laterModifiers t) (hb : h.Balanced o t drawn)
    (herr : applyAll ms (.playing t.draft h p) = .error f T) : o.Fails t drawn p f T := by
  induction ms generalizing h p drawn with
  | nil => cases herr
  | cons m ms ih =>
    have hm := hms m List.mem_cons_self
    rcases bind_eq_error_iff.1 herr with hfirst | ⟨_, _, hfirst, hrest⟩
    · cases follows_of_mem hm with
      | reroll hr => exact fails_of_reroll hr hb hfirst
      | explode he => exact fails_of_explode he hb hfirst
      | drop kind count => exact fails_of_drop hm hfirst
    · obtain ⟨vs, s, h₁, hstep, hg, rfl⟩ := apply_of_ok hfirst
      obtain ⟨q, rfl, -⟩ := hg.exists_script
      exact .of_gives hg (ih (fun m hm => hms m (List.mem_cons_of_mem _ hm))
        (hstep.balanced (follows_of_mem hm) hb) hrest)

/-- A roll fails where the script is stuck, or because of a number in a tag,
after drawing some values. -/
theorem rollTerm_of_error {s : Source} (herr : o.rollTerm t (.scripted p) = .error f s) :
    ∃ T, s = T.source ∧ o.Fails t [] p f T := by
  unfold rollTerm at herr
  split at herr
  · cases herr
  · next T hall =>
    cases herr
    refine ⟨T, rfl, ?_⟩
    rw [modifiersFor_eq_cons] at hall
    rcases bind_eq_error_iff.1 hall with hfirst | ⟨_, _, hfirst, hrest⟩
    · obtain ⟨vs, h', q, hg, hstuck, hT⟩ := initialRoll_of_error hfirst
      exact ⟨vs, h', q, hg, hT, .inl hstuck⟩
    · obtain ⟨vs, s, h₁, hstep, hg, rfl⟩ := apply_of_ok hfirst
      obtain ⟨q, rfl, -⟩ := hg.exists_script
      exact .of_gives hg (fails_of_applyAll (fun m hm => hm) hstep.balanced_first hrest)

/-- Dice with sides that may be written fail with a fault of the source, unless
a number of the options or of the script is too long. -/
theorem fault_of_rollTerm {s : Source} (hsides : Numeral.writable t.sides = true)
    (herr : o.rollTerm t (.scripted p) = .error f s) :
    f.OfSource ∨ f = .numeralTooLongToWrite ∧
      (o.tagNumbers.all Numeral.writable = false ∨ ¬ p.Short) := by
  obtain ⟨T, -, vs, h, q, hg, -, hstuck | ⟨rfl, htags | hlength⟩⟩ := rollTerm_of_error herr
  · rcases hstuck.fault hsides with hf | ⟨rfl, v, hv, hw⟩
    · exact .inl hf
    · refine .inr ⟨rfl, .inr fun hp => ?_⟩
      have hsum := hp.of_gives hg [v] hv
      rw [List.sum_singleton] at hsum
      exact Bool.false_ne_true (hw.symm.trans hsum)
  · exact .inr ⟨rfl, .inl htags⟩
  · exact .inr ⟨rfl, .inr fun hp => Bool.false_ne_true (hlength.symm.trans (hg.writable_length hp))⟩

/-! ### A tag that is too long -/

/-- If `n` is too long to be written, then the reroll of at most `n` fails although
the script has what it needs. The roll has been replaced by then. -/
theorem reroll_of_unwritable {n : Nat} (hn : Numeral.writable n = false) (hsides : 4 ≤ t.sides)
    (passed : List Int) :
    (Modifier.reroll (.number n)).apply (.playing t.draft { rolls := [3] } ⟨passed, [4]⟩) =
      .error .numeralTooLongToWrite
        (.playing t.draft { rolls := [4], rerolled := 1 } ⟨4 :: passed, []⟩) := by
  have hlow : Datum.atMost (.number 3) (.number n) = .ok true := by
    rw [Datum.atMost_number, decide_eq_true]
    by_contra hlt
    have hw := writable_of_lt (n := n) (by omega)
    exact Bool.false_ne_true (hn.symm.trans hw)
  have hgives : Source.Gives t.sides (.scripted ⟨passed, [4]⟩) [4]
      (.scripted ⟨4 :: passed, []⟩) :=
    .cons (Source.draw_scripted_iff.2 ⟨[], rfl, by decide, by omega, rfl⟩) .nil
  have hagain : Play.rerollEach (.number n) [3] (.playing t.draft { rolls := [3] } ⟨passed, [4]⟩) =
      .ok [4] (.playing t.draft { rolls := [3], rerolled := 1 } ⟨4 :: passed, []⟩) :=
    Play.rerollEach_eq_ok_iff.2 ⟨[4], _, .again hlow .nil, hgives, rfl⟩
  rw [apply, applyReroll, Play.hand_bind, bind_of_ok hagain, Play.update_bind,
    Play.hand_bind, if_neg Nat.one_ne_zero]
  have hnumbers : ([(n : Int)] ++ [((1 : Nat) : Int)]).all Numeral.writable = false := by
    rw [List.all_append, List.all_cons, hn]
    rfl
  exact leaveTag_eq_error_iff.2 ⟨rfl, hnumbers, rfl⟩

/-- If rolls of at most `n` are rerolled, and `n` is too long to be written, then
a die is not rolled although the script has what the reroll needs. -/
theorem rollTerm_of_unwritable {n : Nat} (hr : o.reroll = some ⟨n⟩) (hpick : o.pickOf t = none)
    (hn : Numeral.writable n = false) (ht : t.number = 1) (hsides : 4 ≤ t.sides) :
    o.rollTerm t (.scripted (.ofList [3, 4])) =
      .error .numeralTooLongToWrite (.scripted ⟨[4, 3], []⟩) := by
  have hrange : ∀ v ∈ [(3 : Int)], 1 ≤ v ∧ v ≤ (t.sides : Int) := by
    intro v hv
    rw [List.mem_singleton.1 hv]
    omega
  have hthree : Step t .roll {} [3] { rolls := [3] } := .roll ht.symm
  have hroll := (hthree.consumes hrange).full [] [4]
  have hreroll := reroll_of_unwritable (t := t) hn hsides [3]
  have hinitial : o.initialRoll t = .roll := by
    rcases o.initialRoll_cases t with ⟨-, hm⟩ | ⟨highest, _, hsome, -⟩
    · exact hm
    · cases hpick.symm.trans hsome
  obtain ⟨later, hmodifiers⟩ : ∃ later, o.modifiersFor t = .roll :: .reroll (.number n) :: later := by
    rw [modifiersFor_eq_cons, hinitial, laterModifiers, hr]
    exact ⟨_, rfl⟩
  have hall : applyAll (o.modifiersFor t) (.playing t.draft {} (.ofList [3, 4])) =
      .error .numeralTooLongToWrite
        (.playing t.draft { rolls := [4], rerolled := 1 } ⟨[4, 3], []⟩) := by
    rw [hmodifiers]
    exact bind_eq_error_iff.2 (.inr ⟨(), _, hroll, bind_eq_error_iff.2 (.inl hreroll)⟩)
  rw [rollTerm, hall]

end Options
end DiceRoller
