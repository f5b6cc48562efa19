/-
# Capital letters of ASCII make no difference to a lowered text

Lowering looks at a character in four ways: is it one of the two special letters,
is it cased, is it passed over, and what is it lowered to? A capital letter of
ASCII and its small letter give the same answers, and it is enough to see this for
the 26 pairs (`toLower_cases`). So a text and the text with small letters of ASCII
are lowered to the same, also where a sigma looks at its neighbours
(`Lower.text_map_toLower`).

Key theorems: `toLower_cases`, `Lower.casedNext_map_toLower`,
`Lower.textAfter_map_toLower`, `Lower.text_map_toLower`.
-/
import DiceRoller.Proofs.Text.Lowered
import DiceRoller.Sign
import DiceRoller.Text.Blank

namespace DiceRoller

/-! ### Pairs of letters -/

/-- What holds of each character with itself, and of each capital letter with its
small letter, holds of each character and the one that it is lowered to. -/
theorem toLower_cases {P : Char → Char → Prop} (hself : ∀ c, P c c)
    (hcapital : ∀ k < 26, P (Char.ofNat (65 + k)) (Char.ofNat (97 + k))) (c : Char) :
    P c c.toLower := by
  have hnat := toNat_toLower c
  by_cases h : 65 ≤ c.toNat ∧ c.toNat ≤ 90
  · rw [if_pos h] at hnat
    have hcap := hcapital (c.toNat - 65) (by omega)
    have h₁ : 65 + (c.toNat - 65) = c.toNat := by omega
    have h₂ : 97 + (c.toNat - 65) = c.toLower.toNat := by omega
    rwa [h₁, h₂, Char.ofNat_toNat, Char.ofNat_toNat] at hcap
  · rw [if_neg h] at hnat
    rw [Char.toNat_inj.1 hnat]
    exact hself c

theorem Blank.isBlank_toLower (c : Char) : isBlank c.toLower = isBlank c :=
  toLower_cases (P := fun c d => isBlank d = isBlank c) (fun _ => rfl) (by decide) c

theorem Sign.ofChar?_toLower (c : Char) : ofChar? c.toLower = ofChar? c :=
  toLower_cases (P := fun c d => ofChar? d = ofChar? c) (fun _ => rfl) (by decide) c

theorem Sign.toLower_char (s : Sign) : s.char.toLower = s.char := by cases s <;> rfl

theorem Blank.remove_map_toLower (s : List Char) :
    remove (s.map Char.toLower) = (remove s).map Char.toLower := by
  have hcomp : (fun c => !isBlank c) ∘ Char.toLower = fun c => !isBlank c :=
    funext fun c => congrArg not (isBlank_toLower c)
  rw [remove, List.filter_map, hcomp, remove]

namespace Lower

theorem single_toLower (c : Char) : single c.toLower = single c :=
  toLower_cases (P := fun c d => single d = single c) (fun _ => rfl) (by decide +kernel) c

theorem cased_toLower (c : Char) : within cased c.toLower = within cased c :=
  toLower_cases (P := fun c d => within cased d = within cased c) (fun _ => rfl)
    (by decide +kernel) c

theorem ignorable_toLower (c : Char) : within ignorable c.toLower = within ignorable c :=
  toLower_cases (P := fun c d => within ignorable d = within ignorable c) (fun _ => rfl)
    (by decide +kernel) c

/-- The special letters are not in ASCII, and stay as they are. -/
theorem toLower_eq_special_iff (c : Char) :
    (c.toLower = 'Σ' ↔ c = 'Σ') ∧ (c.toLower = 'İ' ↔ c = 'İ') :=
  toLower_cases (P := fun c d => (d = 'Σ' ↔ c = 'Σ') ∧ (d = 'İ' ↔ c = 'İ'))
    (fun _ => ⟨Iff.rfl, Iff.rfl⟩) (by decide) c

/-! ### Whole texts -/

theorem casedNext_map_toLower (s : List Char) : casedNext (s.map Char.toLower) = casedNext s := by
  have hcomp : within ignorable ∘ Char.toLower = within ignorable := funext ignorable_toLower
  unfold casedNext
  rw [List.dropWhile_map, hcomp]
  cases s.dropWhile (within ignorable) with
  | nil => rfl
  | cons c _ => exact cased_toLower c

theorem finalSigma_map_toLower (before after : List Char) :
    finalSigma (before.map Char.toLower) (after.map Char.toLower) = finalSigma before after := by
  rw [finalSigma, casedNext_map_toLower, casedNext_map_toLower, finalSigma]

/-- Neither the case of the text nor that of what stands before it matters. -/
theorem textAfter_map_toLower (before s : List Char) :
    textAfter (before.map Char.toLower) (s.map Char.toLower) = textAfter before s := by
  induction s generalizing before with
  | nil => rfl
  | cons c rest ih =>
    have hrest := ih (c :: before)
    rw [List.map_cons] at hrest
    rw [List.map_cons, textAfter, textAfter, hrest]
    simp only [toLower_eq_special_iff, finalSigma_map_toLower, single_toLower]

theorem text_map_toLower (s : List Char) : text (s.map Char.toLower) = text s :=
  textAfter_map_toLower [] s

end Lower
end DiceRoller
