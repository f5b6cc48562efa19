/-
# Texts that are lowered to a spelling

Spellings of terms are made of ASCII digits, the letters `d` and `l` and the
percent sign. Lowering takes no character from beyond ASCII to one of these
(`Lower.run_image`), so a text is lowered to a spelling only by its capital
letters of ASCII: as far as spellings go, lowering is `Char.toLower`
(`Lower.textAfter_eq_iff`).

Key definition: `Spelling.isAlphabet`.
Key theorems: `map_toLower_eq_run_iff`, `Lower.single_eq_iff`,
`Lower.textAfter_eq_iff`.
-/
import DiceRoller.Term.Spelling
import DiceRoller.Text.Lower

namespace DiceRoller

/-- The characters of which spellings are made. -/
def Spelling.isAlphabet (c : Char) : Bool := c.isDigit || c == 'd' || c == 'l' || c == '%'

/-! ### Lowering in ASCII -/

theorem toNat_toLower (c : Char) :
    c.toLower.toNat = if 65 ≤ c.toNat ∧ c.toNat ≤ 90 then c.toNat + 32 else c.toNat := by
  unfold Char.toLower
  split
  · next h =>
    have h' : 65 ≤ c.toNat ∧ c.toNat ≤ 90 := h
    have h90 : c.val.toNat ≤ 90 := h'.2
    rw [if_pos h']
    show (c.val + 32).toNat = c.val.toNat + 32
    rw [UInt32.toNat_add]
    exact Nat.mod_eq_of_lt (by simp; omega)
  · next h =>
    have h' : ¬ (65 ≤ c.toNat ∧ c.toNat ≤ 90) := h
    rw [if_neg h']

theorem isDigit_iff {c : Char} : c.isDigit = true ↔ 48 ≤ c.toNat ∧ c.toNat ≤ 57 := by
  simp only [Char.isDigit, Bool.and_eq_true, decide_eq_true_eq]
  exact Iff.rfl

/-- Digits have no case. -/
theorem toLower_eq_digit_iff {c x : Char} (hc : c.isDigit = true) : x.toLower = c ↔ x = c := by
  rw [isDigit_iff] at hc
  rw [← Char.toNat_inj, ← Char.toNat_inj, toNat_toLower]
  split <;> omega

theorem toLower_eq_d_iff {x : Char} : x.toLower = 'd' ↔ x = 'd' ∨ x = 'D' := by
  rw [← Char.toNat_inj, ← Char.toNat_inj, ← Char.toNat_inj, toNat_toLower]
  show _ = 100 ↔ _ = 100 ∨ _ = 68
  split <;> omega

theorem toLower_eq_l_iff {x : Char} : x.toLower = 'l' ↔ x = 'l' ∨ x = 'L' := by
  rw [← Char.toNat_inj, ← Char.toNat_inj, ← Char.toNat_inj, toNat_toLower]
  show _ = 108 ↔ _ = 108 ∨ _ = 76
  split <;> omega

theorem toLower_eq_percent_iff {x : Char} : x.toLower = '%' ↔ x = '%' := by
  rw [← Char.toNat_inj, ← Char.toNat_inj, toNat_toLower]
  show _ = 37 ↔ _ = 37
  split <;> omega

/-- A run of digits is lowered from itself only. -/
theorem map_toLower_eq_run_iff {run s : List Char} (hrun : ∀ c ∈ run, c.isDigit = true) :
    s.map Char.toLower = run ↔ s = run := by
  induction run generalizing s with
  | nil => exact List.map_eq_nil_iff
  | cons c run ih =>
    have hc := hrun c List.mem_cons_self
    have ih' := fun s => ih (s := s) fun d hd => hrun d (List.mem_cons_of_mem _ hd)
    cases s with
    | nil =>
      constructor <;> intro h <;> cases h
    | cons x s =>
      rw [List.map_cons, List.cons.injEq, List.cons.injEq, toLower_eq_digit_iff hc, ih' s]

/-! ### The alphabet of spellings -/

namespace Spelling

theorem toNat_lt_of_isAlphabet {c : Char} (h : isAlphabet c = true) :
    c.toNat < 0x80 ∧ c.toNat ≠ 0 ∧ c.toNat ≠ 0x6B := by
  simp only [isAlphabet, isDigit_iff, Bool.or_eq_true, beq_iff_eq] at h
  rcases h with ((h | rfl) | rfl) | rfl
  · omega
  · decide
  · decide
  · decide

end Spelling

/-! ### Lowering to a spelling -/

namespace Lower

/-- Whether the run takes nothing from beyond ASCII into ASCII, but for what it
takes to `k`. -/
def Run.keepsOut (r : Run) : Bool :=
  r.last < 0x80 || (0x80 : Int) ≤ r.first + r.shift ||
    (r.first == r.last && (r.first : Int) + r.shift == 0x6B)

theorem keepsOut_runs : ∀ r ∈ runs, r.keepsOut = true := by decide +kernel

/-- What a run takes from beyond ASCII is beyond ASCII again, or `k`. -/
theorem run_image {r : Run} {n : Nat} (hr : r ∈ runs) (hn : r.holds n = true) (h80 : 0x80 ≤ n) :
    (0x80 : Int) ≤ n + r.shift ∨ (n : Int) + r.shift = 0x6B := by
  have hk := keepsOut_runs r hr
  simp only [Run.keepsOut, Bool.or_eq_true, Bool.and_eq_true, decide_eq_true_eq, beq_iff_eq] at hk
  simp only [Run.holds, Bool.and_eq_true, decide_eq_true_eq, beq_iff_eq] at hn
  omega

theorem toNat_ofNat_cases (n : Nat) : (Char.ofNat n).toNat = n ∨ (Char.ofNat n).toNat = 0 := by
  unfold Char.ofNat
  by_cases h : n.isValidChar
  · rw [dif_pos h]
    exact .inl rfl
  · rw [dif_neg h]
    exact .inr rfl

/-- A single character is lowered to one of the alphabet as in ASCII. -/
theorem single_eq_iff {c x : Char} (hx : Spelling.isAlphabet x = true) :
    single c = x ↔ c.toLower = x := by
  obtain ⟨h80, h0, hk⟩ := Spelling.toNat_lt_of_isAlphabet hx
  by_cases hc : c.toNat < 0x80
  · rw [single, if_pos hc]
  · have hself : c.toLower = c := by
      rw [← Char.toNat_inj, toNat_toLower, if_neg (by omega)]
    rw [hself]
    constructor
    · intro h
      -- neither a run nor the character itself gets here
      exfalso
      rw [single, if_neg hc] at h
      split at h
      · next r hr =>
        have hmem := List.mem_of_find?_eq_some hr
        have hholds : r.holds c.toNat = true :=
          List.find?_some (p := fun r : Run => r.holds c.toNat) hr
        have himage := run_image hmem hholds (by omega)
        rcases toNat_ofNat_cases (c.toNat + r.shift).toNat with hn | hn
        · rw [h] at hn
          omega
        · rw [h] at hn
          exact h0 hn
      · rw [h] at hc
        exact hc h80
    · rintro rfl
      exact absurd h80 hc

/-- A text is lowered to one over the alphabet as in ASCII. -/
theorem textAfter_eq_iff {low : List Char} (hlow : ∀ x ∈ low, Spelling.isAlphabet x = true)
    (before s : List Char) : textAfter before s = low ↔ s.map Char.toLower = low := by
  induction s generalizing before low with
  | nil => rfl
  | cons c rest ih =>
    cases low with
    | nil =>
      constructor
      · intro h
        unfold textAfter at h
        split at h
        · cases h
        · split at h <;> cases h
      · intro h
        cases h
    | cons x low =>
      have hx := hlow x List.mem_cons_self
      have hrest := ih (fun y hy => hlow y (List.mem_cons_of_mem _ hy)) (c :: before)
      rw [List.map_cons, List.cons.injEq, ← hrest, textAfter]
      split
      · next hsigma =>
        constructor
        · intro h
          have hhead := (List.cons.inj h).1
          subst hhead
          split at hx <;> exact absurd hx (by decide)
        · rintro ⟨h, -⟩
          subst hsigma h
          exact absurd hx (by decide)
      · split
        · next hdot =>
          constructor
          · intro h
            have hhead := (List.cons.inj h).1
            subst hhead
            exact absurd hx (by decide)
          · rintro ⟨h, -⟩
            subst hdot h
            exact absurd hx (by decide)
        · rw [List.singleton_append, List.cons.injEq, single_eq_iff hx]

end Lower
end DiceRoller
