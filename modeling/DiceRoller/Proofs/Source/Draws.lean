/-
# What a source hands out when a die is rolled again and again

`Source.Gives m s vs s'` says that a die with `m` sides, rolled with the
source `s` once for each value of `vs`, shows these values in order and leaves
the source `s'`. It is how the other modules speak of the values that a roll
drew: as many draws as there are values, each of them from one up to `m`
(`Source.Gives.mem_range`), by the script that was passed on as well as by a
generator (`Generator.draw_mem_range`).

A script gives exactly the values that stand next in it
(`Source.gives_scripted_iff`), so any values in the range can be given by a
script made for them (`Source.gives_script`).

Key definition: `Source.Gives`.
Key theorems: `Source.draw_mem_range`, `Source.Gives.mem_range`,
`Source.gives_scripted_iff`, `Source.gives_script`.
-/
import DiceRoller.Source

namespace DiceRoller
namespace Source

theorem draw_mem_range {low high v : Int} {s s' : Source} (h : draw low high s = .ok v s') :
    low ≤ v ∧ v ≤ high := by
  cases s with
  | scripted p =>
    simp only [draw] at h
    split at h
    · next hd =>
      cases h
      obtain ⟨-, h1, h2, -⟩ := Script.draw_eq_ok_iff.1 hd
      exact ⟨h1, h2⟩
    · cases h
  | seeded g =>
    simp only [draw] at h
    split at h
    · next hd =>
      cases h
      exact Generator.draw_mem_range hd
    · cases h

theorem draw_scripted_iff {low high v : Int} {p : Script} {s : Source} :
    draw low high (.scripted p) = .ok v s ↔
      ∃ rest, p.pending = v :: rest ∧ low ≤ v ∧ v ≤ high ∧ s = .scripted ⟨v :: p.passed, rest⟩ := by
  simp only [draw]
  constructor
  · intro h
    split at h
    · next q hd =>
      cases h
      obtain ⟨h1, h2, h3, h4⟩ := Script.draw_eq_ok_iff.1 hd
      exact ⟨_, h1, h2, h3, by rw [← h4]⟩
    · cases h
  · rintro ⟨rest, h1, h2, h3, rfl⟩
    rw [Script.draw_eq_ok_iff (t := ⟨v :: p.passed, rest⟩) |>.2 ⟨h1, h2, h3, rfl⟩]

/-! ### Draws one after the other -/

/-- Rolling a die with `m` sides shows the values in order, and leaves the
second source of the first. -/
inductive Gives (m : Int) : Source → List Int → Source → Prop
  | nil {s : Source} : Gives m s [] s
  | cons {s s₁ s' : Source} {v : Int} {vs : List Int} :
      draw 1 m s = .ok v s₁ → Gives m s₁ vs s' → Gives m s (v :: vs) s'

namespace Gives

variable {m : Int} {s s₁ s' : Source} {vs ws : List Int}

theorem append (h : Gives m s vs s₁) (h' : Gives m s₁ ws s') : Gives m s (vs ++ ws) s' := by
  induction h with
  | nil => exact h'
  | cons hd _ ih => exact .cons hd (ih h')

theorem split : ∀ {vs : List Int} {s : Source}, Gives m s (vs ++ ws) s' →
    ∃ s₁, Gives m s vs s₁ ∧ Gives m s₁ ws s'
  | [], s, h => ⟨s, .nil, h⟩
  | v :: vs, s, h => by
    cases h with
    | cons hd h =>
      obtain ⟨s₂, h1, h2⟩ := split h
      exact ⟨s₂, .cons hd h1, h2⟩

theorem mem_range (h : Gives m s vs s') : ∀ v ∈ vs, 1 ≤ v ∧ v ≤ m := by
  induction h with
  | nil => intro v hv; cases hv
  | cons hd _ ih =>
    intro v hv
    rcases List.mem_cons.1 hv with rfl | hv
    · exact draw_mem_range hd
    · exact ih v hv

end Gives

/-- What a script gives are its next values, as long as they are in the range. -/
theorem gives_scripted_iff {m : Int} : ∀ {vs : List Int} {p : Script} {s : Source},
    Gives m (.scripted p) vs s ↔ ∃ rest, p.pending = vs ++ rest ∧ (∀ v ∈ vs, 1 ≤ v ∧ v ≤ m) ∧
      s = .scripted ⟨vs.reverse ++ p.passed, rest⟩
  | [], p, s => by
    constructor
    · rintro ⟨⟩
      exact ⟨p.pending, rfl, nofun, rfl⟩
    · rintro ⟨rest, rfl, -, rfl⟩
      exact .nil
  | v :: vs, p, s => by
    constructor
    · intro h
      cases h with
      | cons hd h =>
        obtain ⟨rest, hp, h1, h2, rfl⟩ := draw_scripted_iff.1 hd
        obtain ⟨rest', hr, hvs, rfl⟩ := gives_scripted_iff.1 h
        refine ⟨rest', by rw [hp, show rest = vs ++ rest' from hr, List.cons_append], ?_, by simp⟩
        intro w hw
        rcases List.mem_cons.1 hw with rfl | hw
        · exact ⟨h1, h2⟩
        · exact hvs w hw
    · rintro ⟨rest, hp, hvs, rfl⟩
      obtain ⟨h1, h2⟩ := hvs v List.mem_cons_self
      refine .cons (draw_scripted_iff.2 ⟨vs ++ rest, hp, h1, h2, rfl⟩) ?_
      refine gives_scripted_iff.2 ⟨rest, rfl, ?_, by simp⟩
      exact fun w hw => hvs w (List.mem_cons_of_mem _ hw)

/-- A script gives the values that were put first into it. -/
theorem gives_script {m : Int} {vs : List Int} (h : ∀ v ∈ vs, 1 ≤ v ∧ v ≤ m)
    (passed rest : List Int) :
    Gives m (.scripted ⟨passed, vs ++ rest⟩) vs (.scripted ⟨vs.reverse ++ passed, rest⟩) :=
  gives_scripted_iff.2 ⟨rest, rfl, h, rfl⟩

end Source
end DiceRoller
