/-
# Steps that read a script as far as they draw

A step that draws from a source depends on it only through the values drawn, so
what it does can be played back from a script of them.
`Consumes x on vs a on'` says this of one run of a step: on every script that
starts with the values it draws exactly these, whatever comes after them, and on
every script that ends before the last of them it runs out at the end of the
script. Here `on` and `on'` are the states before and after, with a place left
for the script.

Steps one after the other consume what each of them does (`Consumes.bind`), so
for a program it is enough to look at the step that draws.

Key definitions: `HasSource`, `Consumes`, `Source.rollAll`.
Key theorems: `Consumes.bind`, `Consumes.cons`, `Source.Gives.rollAll`.
-/
import DiceRoller.Proofs.Source.Draws
import DiceRoller.Proofs.Steps

namespace DiceRoller

/-- A state that has a source in it. -/
class HasSource (σ : Type) where
  source : σ → Source

instance : HasSource Source := ⟨id⟩

/-- The step draws the values from every script that starts with them, and runs
out of every script that ends within them. -/
structure Consumes {σ α : Type} [HasSource σ] (x : EStateM Fault σ α) (on : Script → σ)
    (vs : List Int) (a : α) (on' : Script → σ) : Prop where
  full (passed rest : List Int) :
    x (on ⟨passed, vs ++ rest⟩) = .ok a (on' ⟨vs.reverse ++ passed, rest⟩)
  short {us ws : List Int} {w : Int} (hvs : vs = us ++ w :: ws) (passed : List Int) :
    ∃ T, x (on ⟨passed, us⟩) = .error (.scriptExhausted (passed.length + us.length)) T ∧
      HasSource.source T = .scripted ⟨us.reverse ++ passed, []⟩

theorem nil_ne_append_cons {us ws : List Int} {w : Int} : [] ≠ us ++ w :: ws :=
  (List.append_ne_nil_of_right_ne_nil us (List.cons_ne_nil w ws)).symm

namespace Consumes

variable {σ α β : Type} [HasSource σ] {x : EStateM Fault σ α} {f : α → EStateM Fault σ β}
  {on on₁ on' : Script → σ} {vs ws : List Int} {a : α} {b : β}

theorem quiet (h : ∀ p, x (on p) = .ok a (on' p)) : Consumes x on [] a on' where
  full passed rest := h ⟨passed, rest⟩
  short hvs _ := absurd hvs nil_ne_append_cons

theorem bind (hx : Consumes x on vs a on₁) (hf : Consumes (f a) on₁ ws b on') :
    Consumes (x >>= f) on (vs ++ ws) b on' where
  full passed rest := by
    calc (x >>= f) (on ⟨passed, vs ++ ws ++ rest⟩)
        = (x >>= f) (on ⟨passed, vs ++ (ws ++ rest)⟩) := by rw [List.append_assoc]
      _ = f a (on₁ ⟨vs.reverse ++ passed, ws ++ rest⟩) := bind_of_ok (hx.full passed (ws ++ rest))
      _ = .ok b (on' ⟨ws.reverse ++ (vs.reverse ++ passed), rest⟩) := hf.full _ rest
      _ = .ok b (on' ⟨(vs ++ ws).reverse ++ passed, rest⟩) := by
        rw [List.reverse_append, List.append_assoc]
  short {us ws' w} hsplit passed := by
    -- the script ends within the values of the second step
    have hlate : ∀ us', us = vs ++ us' → ws = us' ++ w :: ws' →
        ∃ T, (x >>= f) (on ⟨passed, us⟩) =
            .error (.scriptExhausted (passed.length + us.length)) T ∧
          HasSource.source T = .scripted ⟨us.reverse ++ passed, []⟩ := by
      rintro us' rfl hws
      obtain ⟨T, hT, hs⟩ := hf.short hws (vs.reverse ++ passed)
      refine ⟨T, ?_, ?_⟩
      · rw [bind_of_ok (hx.full passed us'), hT, List.length_append, List.length_append,
          List.length_reverse, Nat.add_comm vs.length, Nat.add_assoc]
      · rw [hs, List.reverse_append, List.append_assoc]
    rcases List.append_eq_append_iff.1 hsplit with ⟨us', hus, hws⟩ | ⟨left, hvs, hws⟩
    · exact hlate us' hus hws
    · cases left with
      | nil => exact hlate [] (by rw [hvs, List.append_nil, List.append_nil]) hws.symm
      | cons v left =>
        obtain ⟨rfl, -⟩ := List.cons.inj hws
        obtain ⟨T, hT, hs⟩ := hx.short hvs passed
        exact ⟨T, bind_of_error hT, hs⟩

/-- What comes before the first draw does not matter. -/
theorem after_quiet (h : ∀ p, x (on p) = .ok a (on₁ p)) (hf : Consumes (f a) on₁ ws b on') :
    Consumes (x >>= f) on ws b on' :=
  (quiet h).bind hf

/-- What comes after the last draw does not matter. -/
theorem then_quiet (hx : Consumes x on vs a on₁) (h : ∀ p, f a (on₁ p) = .ok b (on' p)) :
    Consumes (x >>= f) on vs b on' := by
  rw [← List.append_nil vs]
  exact hx.bind (quiet h)

theorem cons {y : α → EStateM Fault σ (List α)} {as : List α} (hx : Consumes x on vs a on₁)
    (hy : Consumes (y a) on₁ ws as on') :
    Consumes (do let a ← x; let as ← y a; return a :: as) on (vs ++ ws) (a :: as) on' :=
  hx.bind (hy.then_quiet fun _ => rfl)

/-- The first values alone, but not all of them, are too few. -/
theorem take (hx : Consumes x on vs a on') {j : Nat} (hj : j < vs.length) :
    ∃ T, x (on (.ofList (vs.take j))) = .error (.scriptExhausted j) T ∧
      HasSource.source T = .scripted ⟨(vs.take j).reverse, []⟩ := by
  have hsplit : vs = vs.take j ++ vs[j] :: vs.drop (j + 1) := by
    rw [← List.drop_eq_getElem_cons hj, List.take_append_drop]
  obtain ⟨T, hT, hsource⟩ := hx.short hsplit []
  rw [List.length_take_of_le (Nat.le_of_lt hj), List.length_nil, Nat.zero_add] at hT
  rw [List.append_nil] at hsource
  exact ⟨T, hT, hsource⟩

end Consumes

/-! ### Dice one after the other -/

namespace Source

/-- Rolls dice with the given numbers of sides, one after the other. -/
def rollAll : List Int → EStateM Fault Source (List Int)
  | [] => pure []
  | m :: ms => do
    let v ← draw 1 m
    let vs ← rollAll ms
    return v :: vs

theorem rollAll_append {ms ns vs ws : List Int} {s s₁ s' : Source}
    (h : rollAll ms s = .ok vs s₁) (h' : rollAll ns s₁ = .ok ws s') :
    rollAll (ms ++ ns) s = .ok (vs ++ ws) s' := by
  induction ms generalizing s vs with
  | nil =>
    obtain ⟨rfl, rfl⟩ := pure_eq_ok_iff.1 h
    exact h'
  | cons m ms ih =>
    obtain ⟨v, s₂, vs, hv, hvs, rfl⟩ := cons_eq_ok_iff.1 h
    exact cons_eq_ok_iff.2 ⟨v, s₂, vs ++ ws, hv, ih hvs, rfl⟩

/-- What a source gives for a die is what it shows when rolled as often. -/
theorem Gives.rollAll {m : Int} {vs : List Int} {s s' : Source} (h : Gives m s vs s') :
    rollAll (List.replicate vs.length m) s = .ok vs s' := by
  induction h with
  | nil => rfl
  | cons hd _ ih => exact cons_eq_ok_iff.2 ⟨_, _, _, hd, ih, rfl⟩

end Source
end DiceRoller
