/-
# Steps of play consume the values they draw

Whatever is rolled at the table can be played back from a script of the values
drawn: the dice of a term (`Play.dice_consumes`), rerolls
(`Play.rerollEach_consumes`) and explosions (`Play.explodeEach_consumes`).

How many values are drawn depends on the values themselves. For a chain without
a cap there is more to it, since the room it is given is the number of values
that the script has left and one more: this is enough for the chain if it stands
in the script, and if the script ends first, it is enough to reach the end.

Key definition: `Table.playing`.
Key theorems: `Play.dice_consumes`, `Play.rerollEach_consumes`,
`Play.chain_short`, `Play.explodeEach_consumes`.
-/
import DiceRoller.Proofs.Hand.Play
import DiceRoller.Proofs.Source.Replay

namespace DiceRoller

instance : HasSource Table := ⟨Table.source⟩

/-- The table with the term and the hand, at which the script is played. -/
abbrev Table.playing (d : Draft) (h : Hand) (p : Script) : Table := ⟨d, h, .scripted p⟩

namespace Play

variable {d : Draft} {t : DiceTerm} {h : Hand} {m v : Int} {vs ws rolls rolls' : List Int}

/-! ### Dice -/

theorem die_consumes (hv : 1 ≤ v ∧ v ≤ m) :
    Consumes (die (.number m)) (.playing d h) [v] v (.playing d h) where
  full passed rest := by
    rw [die_eq_ok_iff]
    exact ⟨_, Source.draw_scripted_iff.2 ⟨rest, rfl, hv.1, hv.2, rfl⟩, rfl⟩
  short {us ws w} hvs passed := by
    cases us with
    | nil => exact ⟨.playing d h ⟨passed, []⟩, rfl, rfl⟩
    | cons u us =>
      rw [List.cons_append, List.cons.injEq] at hvs
      exact absurd hvs.2 nil_ne_append_cons

theorem ownDie_consumes (hv : 1 ≤ v ∧ v ≤ (t.sides : Int)) :
    Consumes ownDie (.playing t.draft h) [v] v (.playing t.draft h) :=
  .after_quiet (fun _ => sides_draft) (die_consumes hv)

theorem dice_consumes (hvs : ∀ v ∈ vs, 1 ≤ v ∧ v ≤ (t.sides : Int)) :
    Consumes (dice vs.length) (.playing t.draft h) vs vs (.playing t.draft h) := by
  induction vs with
  | nil => exact .quiet fun _ => rfl
  | cons v vs ih =>
    have hrest := ih fun w hw => hvs w (List.mem_cons_of_mem _ hw)
    exact .cons (ownDie_consumes (hvs v List.mem_cons_self)) hrest

/-! ### Rerolls -/

theorem again_consumes (hv : 1 ≤ v ∧ v ≤ (t.sides : Int)) :
    Consumes again (.playing t.draft h) [v] v
      (.playing t.draft { h with rerolled := h.rerolled + 1 }) :=
  (ownDie_consumes hv).then_quiet fun _ => rfl

theorem rerollEach_consumes {lte : Datum} (hr : Rerolls lte rolls vs rolls')
    (hvs : ∀ v ∈ vs, 1 ≤ v ∧ v ≤ (t.sides : Int)) (h : Hand) :
    Consumes (rerollEach lte rolls) (.playing t.draft h) vs rolls'
      (.playing t.draft { h with rerolled := h.rerolled + vs.length }) := by
  induction hr generalizing h with
  | nil => exact .quiet fun _ => rfl
  | stay hlow _ ih =>
    rw [rerollEach, hlow]
    exact .after_quiet (fun _ => rfl) (.cons (.quiet fun _ => rfl) (ih hvs h))
  | @again r v rs vs rs' hlow _ ih =>
    have hfirst : Consumes again (.playing t.draft h) [v] v _ :=
      again_consumes (hvs v List.mem_cons_self)
    have hrest := ih (fun w hw => hvs w (List.mem_cons_of_mem _ hw))
      { h with rerolled := h.rerolled + 1 }
    rw [rerollEach, hlow, List.length_cons, Nat.add_comm vs.length, ← Nat.add_assoc]
    exact .after_quiet (fun _ => rfl) (.cons hfirst hrest)

end Play

/-! ### Explosions -/

namespace Explode.Chain

variable {e : Explode} {sides v : Int} {room : Nat} {ws : List Int}

/-- A chain takes no more than its room. -/
theorem length_le (hc : e.Chain sides room v ws) : ws.length ≤ room := by
  induction hc with
  | rest => exact Nat.zero_le _
  | full => exact Nat.zero_le _
  | next _ _ ih => exact Nat.succ_le_succ ih

/-- Without a cap a chain takes whatever room it needs. -/
theorem of_length_le (hc : e.Chain sides room v ws) (h0 : e.cap = 0) {room' : Nat}
    (hle : ws.length ≤ room') : e.Chain sides room' v ws := by
  induction hc generalizing room' with
  | rest ht => exact .rest ht
  | full hcap => exact absurd h0 hcap
  | next ht _ ih =>
    obtain ⟨n, rfl⟩ := Nat.exists_eq_add_of_le' hle
    exact .next ht (ih (Nat.le_add_left _ _))

end Explode.Chain

namespace Play

variable {d : Draft} {h : Hand} {e : Explode} {m v : Int} {vs ws rolls rolls' : List Int}

theorem chain_of_triggers {room : Nat} (ht : e.triggers m v = true) :
    chain e (.number m) (room + 1) v = (do
      let w ← die (.number m)
      let ws ← chain e (.number m) room w
      return w :: ws) := by
  rw [chain, Explode.triggersFor_number, ht]
  rfl

theorem chain_full {room : Nat} (hc : e.Chain m room v ws) (hws : ∀ w ∈ ws, 1 ≤ w ∧ w ≤ m)
    (passed rest : List Int) : chain e (.number m) room v (.playing d h ⟨passed, ws ++ rest⟩) =
      .ok ws (.playing d h ⟨ws.reverse ++ passed, rest⟩) :=
  chain_eq_ok_iff.2 ⟨hc, _, Source.gives_script hws passed rest, rfl⟩

/-- If a script ends within a chain, room for one more value than it has left is
enough to run out of it. -/
theorem chain_short {room room' : Nat} (hc : e.Chain m room v ws) (hws : ∀ w ∈ ws, 1 ≤ w ∧ w ≤ m)
    {us ws' : List Int} {w : Int} (hsplit : ws = us ++ w :: ws') (hroom : us.length < room')
    (passed : List Int) : chain e (.number m) room' v (.playing d h ⟨passed, us⟩) =
      .error (.scriptExhausted (passed.length + us.length))
        (.playing d h ⟨us.reverse ++ passed, []⟩) := by
  induction hc generalizing us room' passed with
  | rest => exact absurd hsplit nil_ne_append_cons
  | full => exact absurd hsplit nil_ne_append_cons
  | @next room v u ws ht _ ih =>
    obtain ⟨n, rfl⟩ := Nat.exists_eq_add_one_of_ne_zero (Nat.ne_zero_of_lt hroom)
    rw [chain_of_triggers ht]
    cases us with
    | nil =>
      have hdie : die (.number m) (.playing d h ⟨passed, []⟩) =
        .error (.scriptExhausted passed.length) (.playing d h ⟨passed, []⟩) := rfl
      exact bind_of_error hdie
    | cons u' us =>
      obtain ⟨rfl, hws'⟩ := List.cons.inj hsplit
      have hdie := (die_consumes (d := d) (h := h) (hws u List.mem_cons_self)).full passed us
      have hrest := ih (fun w hw => hws w (List.mem_cons_of_mem _ hw)) hws'
        (Nat.lt_of_succ_lt_succ hroom) (u :: passed)
      rw [List.length_cons, Nat.add_right_comm] at hrest
      refine (bind_of_ok hdie).trans ((bind_of_error hrest).trans ?_)
      rw [List.length_cons, Nat.add_assoc, List.reverse_cons, List.append_assoc]
      rfl

/-- A chain consumes the values that it adds. -/
theorem extras_consumes (ha : e.Adds m v ws) (hws : ∀ w ∈ ws, 1 ≤ w ∧ w ≤ m) :
    Consumes (extras e (.number m) v) (.playing d h) ws ws (.playing d h) := by
  obtain ⟨room, hroom, hc⟩ := ha
  by_cases hcap : e.cap = 0
  · refine ⟨fun passed rest => ?_, fun {us ws' w} hsplit passed => ?_⟩
    · rw [extras_eq, if_pos hcap]
      refine chain_full (hc.of_length_le hcap ?_) hws passed rest
      rw [Source.horizon, List.length_append]
      omega
    · rw [extras_eq, if_pos hcap]
      exact ⟨_, chain_short hc hws hsplit (Nat.lt_succ_self _) passed, rfl⟩
  · refine ⟨fun passed rest => ?_, fun {us ws' w} hsplit passed => ?_⟩
    · rw [extras_eq, if_neg hcap, ← hroom hcap]
      exact chain_full hc hws passed rest
    · have hle := hc.length_le
      rw [hsplit, List.length_append, List.length_cons] at hle
      rw [extras_eq, if_neg hcap, ← hroom hcap]
      exact ⟨_, chain_short hc hws hsplit (by omega) passed, rfl⟩

theorem explodeEach_consumes (he : Explodes e m rolls vs rolls') (hvs : ∀ v ∈ vs, 1 ≤ v ∧ v ≤ m)
    (h : Hand) : Consumes (explodeEach e (.number m) rolls) (.playing d h) vs rolls'
      (.playing d { h with exploded := h.exploded + vs.length }) := by
  induction he generalizing h with
  | nil => exact .quiet fun _ => rfl
  | @cons v ws rs vs rs' ha _ ih =>
    have hfirst : Consumes (extras e (.number m) v) (.playing d h) ws ws _ :=
      extras_consumes ha fun w hw => hvs w (List.mem_append_left _ hw)
    have hrest := ih (fun w hw => hvs w (List.mem_append_right _ hw))
      { h with exploded := h.exploded + ws.length }
    rw [explodeEach, List.length_append, ← Nat.add_assoc]
    exact hfirst.bind (.after_quiet (fun _ => rfl) (hrest.then_quiet fun _ => rfl))

end Play
end DiceRoller
