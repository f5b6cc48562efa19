/-
# What a script hands out

A draw names two bounds, and is answered with a value between them. A script
answers draws of any kind with its next value, if that is between the bounds
(`Source.drawBetween_scripted_iff`), and a draw that fails leaves it as it was
(`Source.drawBetween_of_error`).

`Script.HandsOut` says that draws are answered one after the other. Their values
come off the front of the script, in order (`Script.HandsOut.pending_eq`), and
each of them is between the bounds of its draw (`Script.HandsOut.fits`). What a
die is given is handed out (`Source.Gives.handsOut`).

Key definitions: `Draw`, `Draw.Fits`, `Script.HandsOut`.
Key theorems: `Source.drawBetween_scripted_iff`, `Script.HandsOut.pending_eq`,
`Script.HandsOut.passed_eq`, `Source.Gives.handsOut`.
-/
import DiceRoller.Proofs.Source.Stuck

namespace DiceRoller

/-! ### Draws -/

/-- A draw that has been answered: the bounds asked for, and the value. -/
structure Draw where
  low : Datum
  high : Datum
  value : Int
  deriving Repr

namespace Draw

/-- A die that has been rolled. -/
def die (sides v : Int) : Draw := ⟨.number 1, .number sides, v⟩

/-- The value is between the bounds. -/
def Fits (d : Draw) : Prop := Script.isBetween d.low d.high d.value = .ok true

end Draw

namespace Script

variable {low high : Datum} {v : Int} {p q : Script} {f : Fault}

theorem isBetween_number (low high v : Int) :
    isBetween (.number low) (.number high) v = .ok (decide (low ≤ v ∧ v ≤ high)) := by
  by_cases hlow : low ≤ v <;> simp [isBetween, hlow] <;> rfl

theorem drawBetween_eq_ok_iff : p.drawBetween low high = .ok v q ↔
    ∃ rest, p.pending = v :: rest ∧ isBetween low high v = .ok true ∧
      q = ⟨v :: p.passed, rest⟩ := by
  obtain ⟨passed, pending⟩ := p
  cases pending with
  | nil => simp [drawBetween]
  | cons w rest =>
    simp only [drawBetween]
    constructor
    · intro h
      split at h
      · next hw =>
        cases h
        exact ⟨rest, rfl, hw, rfl⟩
      all_goals cases h
    · rintro ⟨rest', hpending, hv, rfl⟩
      cases hpending
      rw [hv]

theorem eq_of_drawBetween_error (h : p.drawBetween low high = .error f q) : q = p := by
  obtain ⟨passed, pending⟩ := p
  cases pending with
  | nil =>
    cases h
    rfl
  | cons w rest =>
    simp only [drawBetween] at h
    split at h <;> cases h <;> rfl

theorem eq_of_draw_error {low high : Int} (h : p.draw low high = .error f q) : q = p := by
  obtain ⟨passed, pending⟩ := p
  cases pending with
  | nil =>
    cases h
    rfl
  | cons w rest =>
    by_cases hw : low ≤ w ∧ w ≤ high
    · simp only [draw, if_pos hw] at h
      cases h
    · simp only [draw, if_neg hw, EStateM.Result.error.injEq] at h
      exact h.2.symm

end Script

namespace Source

variable {low high : Datum} {m v : Int} {p q : Script} {s : Source} {f : Fault} {vs : List Int}

theorem drawBetween_number (low high : Int) :
    drawBetween (.number low) (.number high) = draw low high := rfl

/-- A source that is scripted does what its script does, unless both bounds are
whole numbers. -/
theorem drawBetween_scripted (h : ∀ m n, low = .number m → high ≠ .number n) :
    drawBetween low high (.scripted p) =
      match p.drawBetween low high with
      | .ok v p' => .ok v (.scripted p')
      | .error f p' => .error f (.scripted p') := by
  cases low with
  | number m =>
    cases high with
    | number n => exact absurd rfl (h m n rfl)
    | _ => rfl
  | _ => rfl

theorem drawBetween_scripted_iff : drawBetween low high (.scripted p) = .ok v s ↔
    ∃ rest, p.pending = v :: rest ∧ Script.isBetween low high v = .ok true ∧
      s = .scripted ⟨v :: p.passed, rest⟩ := by
  by_cases hnumbers : ∃ m n, low = .number m ∧ high = .number n
  · obtain ⟨m, n, rfl, rfl⟩ := hnumbers
    rw [drawBetween_number, draw_scripted_iff]
    simp only [Script.isBetween_number, Except.ok.injEq, decide_eq_true_iff, and_assoc]
  · rw [drawBetween_scripted fun m n hm hn => hnumbers ⟨m, n, hm, hn⟩]
    constructor
    · intro h
      split at h
      · next hdraw =>
        cases h
        obtain ⟨rest, hpending, hv, rfl⟩ := Script.drawBetween_eq_ok_iff.1 hdraw
        exact ⟨rest, hpending, hv, rfl⟩
      · cases h
    · rintro ⟨rest, hpending, hv, rfl⟩
      rw [Script.drawBetween_eq_ok_iff.2 ⟨rest, hpending, hv, rfl⟩]

theorem drawBetween_of_error (h : drawBetween low high (.scripted p) = .error f s) :
    s = .scripted p := by
  by_cases hnumbers : ∃ m n, low = .number m ∧ high = .number n
  · obtain ⟨m, n, rfl, rfl⟩ := hnumbers
    simp only [drawBetween_number, draw] at h
    split at h
    · cases h
    · next hdraw =>
      cases h
      rw [Script.eq_of_draw_error hdraw]
  · rw [drawBetween_scripted fun m n hm hn => hnumbers ⟨m, n, hm, hn⟩] at h
    split at h
    · cases h
    · next hdraw =>
      cases h
      rw [Script.eq_of_drawBetween_error hdraw]

end Source

/-! ### What a script hands out -/

/-- The draws are answered by the script one after the other, and leave the second
one of it. -/
inductive Script.HandsOut : Script → List Draw → Script → Prop
  | nil {p : Script} : HandsOut p [] p
  | cons {p p₁ q : Script} {d : Draw} {ds : List Draw} :
      Source.drawBetween d.low d.high (.scripted p) = .ok d.value (.scripted p₁) →
      HandsOut p₁ ds q → HandsOut p (d :: ds) q

namespace Script.HandsOut

variable {p p₁ q : Script} {d : Draw} {ds es : List Draw}

theorem append (h : HandsOut p ds p₁) (h' : HandsOut p₁ es q) : HandsOut p (ds ++ es) q := by
  induction h with
  | nil => exact h'
  | cons hd _ ih => exact .cons hd (ih h')

/-- The values handed out come off the front of those that were pending. -/
theorem pending_eq (h : HandsOut p ds q) : p.pending = ds.map Draw.value ++ q.pending := by
  induction h with
  | nil => rfl
  | cons hd _ ih =>
    obtain ⟨rest, hpending, -, hp⟩ := Source.drawBetween_scripted_iff.1 hd
    cases hp
    rw [hpending, List.map_cons, List.cons_append, ← ih]

/-- They are passed in the order in which they were handed out. -/
theorem passed_eq (h : HandsOut p ds q) :
    q.passed.reverse = p.passed.reverse ++ ds.map Draw.value := by
  induction h with
  | nil => exact (List.append_nil _).symm
  | cons hd _ ih =>
    obtain ⟨rest, -, -, hp⟩ := Source.drawBetween_scripted_iff.1 hd
    cases hp
    rw [ih, List.reverse_cons, List.append_assoc, List.singleton_append, List.map_cons]

theorem fits (h : HandsOut p ds q) : ∀ d ∈ ds, d.Fits := by
  induction h with
  | nil => exact nofun
  | cons hd _ ih =>
    obtain ⟨_, -, hv, -⟩ := Source.drawBetween_scripted_iff.1 hd
    exact List.forall_mem_cons.2 ⟨hv, ih⟩

end Script.HandsOut

namespace Source

variable {m : Int} {p q : Script} {f : Fault} {vs : List Int}

/-- What a script gives for a die it hands out. -/
theorem Gives.handsOut (h : Gives m (.scripted p) vs (.scripted q)) :
    p.HandsOut (vs.map (.die m)) q := by
  induction vs generalizing p with
  | nil =>
    cases h
    exact .nil
  | cons v vs ih =>
    cases h with
    | cons hd h =>
      obtain ⟨rest, -, -, -, rfl⟩ := draw_scripted_iff.1 hd
      exact .cons hd (ih h)

theorem drawBetween_of_stuck (h : p.Stuck m f) :
    drawBetween (.number 1) (.number m) (.scripted p) = .error f (.scripted p) := by
  rw [drawBetween_number]
  cases h with
  | exhausted => rfl
  | outOfRange hv => simp only [draw, Script.draw, if_neg hv]

end Source

end DiceRoller
