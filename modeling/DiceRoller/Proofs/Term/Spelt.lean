/-
# The spelling of a text

A text has a spelling exactly if it is the text of one whose groups are runs of
digits, and then it has no other one (`Spelling.read?_eq_some_iff`). So the
order in which the shapes are tried does not matter.

Key definitions: `IsRun`, `Spelling.Proper`.
Key theorems: `digitRun?_append`, `Shape.read?_sound`, `Spelling.read?_eq_some_iff`.
-/
import DiceRoller.Term.Spelling

namespace DiceRoller

/-- The text is a run of digits, at least one. -/
structure IsRun (s : List Char) : Prop where
  ne_nil : s ≠ []
  isDigit : ∀ c ∈ s, c.isDigit = true

/-! ### Runs of digits -/

section

variable {s run rest : List Char}

/-- What stands after a run is not a digit. -/
def EndsRun (rest : List Char) : Prop := ∀ c r, rest = c :: r → c.isDigit = false

theorem endsRun_nil : EndsRun [] := nofun

theorem endsRun_cons {c : Char} (hc : c.isDigit = false) (r : List Char) : EndsRun (c :: r) := by
  rintro _ _ ⟨⟩
  exact hc

theorem EndsRun.takeWhile_eq_nil (he : EndsRun rest) : rest.takeWhile Char.isDigit = [] := by
  cases rest with
  | nil => rfl
  | cons c r => rw [List.takeWhile_cons_of_neg (by rw [he c r rfl]; decide)]

theorem EndsRun.dropWhile_eq_self (he : EndsRun rest) : rest.dropWhile Char.isDigit = rest := by
  cases rest with
  | nil => rfl
  | cons c r => rw [List.dropWhile_cons_of_neg (by rw [he c r rfl]; decide)]

/-- A run is found as far as it goes. -/
theorem digitRun?_append (hr : IsRun run) (he : EndsRun rest) :
    digitRun? (run ++ rest) = some (run, rest) := by
  rw [digitRun?, List.takeWhile_append_of_pos hr.isDigit, he.takeWhile_eq_nil, List.append_nil,
    List.dropWhile_append_of_pos hr.isDigit, he.dropWhile_eq_self]
  cases run with
  | nil => exact absurd rfl hr.ne_nil
  | cons c r => rfl

theorem digitRun?_self (hr : IsRun run) : digitRun? run = some (run, []) := by
  have h := digitRun?_append hr endsRun_nil
  rwa [List.append_nil] at h

theorem digitRun?_eq_none (he : EndsRun rest) : digitRun? rest = none := by
  rw [digitRun?, he.takeWhile_eq_nil]

theorem digitRun?_sound (h : digitRun? s = some (run, rest)) : IsRun run ∧ s = run ++ rest := by
  unfold digitRun? at h
  split at h
  · cases h
  · next d ds hrun =>
    cases h
    refine ⟨⟨List.cons_ne_nil _ _, fun c hc => ?_⟩, ?_⟩
    · rw [← hrun] at hc
      exact List.all_eq_true.1 List.all_takeWhile c hc
    · rw [← hrun, List.takeWhile_append_dropWhile]

end

/-! ### Spellings -/

namespace Spelling

/-- Every group of the spelling is a run of digits. -/
def Proper (sp : Spelling) : Prop := ∀ g ∈ sp.groups, IsRun g

theorem proper_dropDice {number sides drop : List Char} (hn : IsRun number) (hs : IsRun sides)
    (hd : IsRun drop) : (dropDice number sides drop).Proper := by
  intro g hg
  simp only [groups, List.mem_cons, List.not_mem_nil, or_false] at hg
  rcases hg with rfl | rfl | rfl <;> assumption

theorem proper_dice {number sides : List Char} (hn : IsRun number) (hs : IsRun sides) :
    (dice number sides).Proper := by
  intro g hg
  simp only [groups, List.mem_cons, List.not_mem_nil, or_false] at hg
  rcases hg with rfl | rfl <;> assumption

theorem proper_singleDie {sides : List Char} (hs : IsRun sides) : (singleDie sides).Proper := by
  intro g hg
  rwa [List.mem_singleton.1 hg]

theorem proper_constant {value : List Char} (hv : IsRun value) : (constant value).Proper := by
  intro g hg
  rwa [List.mem_singleton.1 hg]

end Spelling

/-- What is read in a shape is spelt so. -/
theorem Shape.read?_sound {shape : Shape} {s : List Char} {sp : Spelling}
    (h : shape.read? s = some sp) : sp.Proper ∧ sp.chars = s := by
  cases shape with
  | percentile =>
    rw [read?] at h
    split at h
    · next hs =>
      cases h
      exact ⟨nofun, hs.symm⟩
    · cases h
  | dropDice =>
    rw [read?] at h
    split at h
    · next number s₁ h₁ =>
      split at h
      · next sides s₂ h₂ =>
        split at h
        · next drop h₃ =>
          cases h
          obtain ⟨hn, rfl⟩ := digitRun?_sound h₁
          obtain ⟨hs, rfl⟩ := digitRun?_sound h₂
          obtain ⟨hd, rfl⟩ := digitRun?_sound h₃
          refine ⟨Spelling.proper_dropDice hn hs hd, ?_⟩
          simp [Spelling.chars]
        · cases h
      · cases h
    · cases h
  | dice =>
    rw [read?] at h
    split at h
    · next number s₁ h₁ =>
      split at h
      · next sides h₂ =>
        cases h
        obtain ⟨hn, rfl⟩ := digitRun?_sound h₁
        obtain ⟨hs, rfl⟩ := digitRun?_sound h₂
        refine ⟨Spelling.proper_dice hn hs, ?_⟩
        simp [Spelling.chars]
      · cases h
    · cases h
  | singleDie =>
    simp only [read?] at h
    split at h
    · split at h
      · next sides h₁ =>
        cases h
        obtain ⟨hs, rfl⟩ := digitRun?_sound h₁
        refine ⟨Spelling.proper_singleDie hs, ?_⟩
        simp [Spelling.chars]
      · cases h
    · cases h
  | constant =>
    rw [read?] at h
    split at h
    · next value h₁ =>
      cases h
      obtain ⟨hv, rfl⟩ := digitRun?_sound h₁
      refine ⟨Spelling.proper_constant hv, ?_⟩
      simp [Spelling.chars]
    · cases h

namespace Spelling

/-- A text is read in the shape that it is spelt in, and in no shape tried
before. -/
theorem read?_chars {sp : Spelling} (hp : sp.Proper) : read? sp.chars = some sp := by
  have hd : ∀ r, EndsRun ('d' :: r) := endsRun_cons (by decide)
  -- a run does not begin with a `d`
  have hne : ∀ {run r r' : List Char}, IsRun run → run ++ r ≠ 'd' :: r' := by
    intro run r r' hrun h
    cases run with
    | nil => exact hrun.ne_nil rfl
    | cons c run =>
      have hc := hrun.isDigit c List.mem_cons_self
      rw [(List.cons.inj h).1] at hc
      exact absurd hc (by decide)
  cases sp with
  | percentile => rfl
  | dropDice number sides drop =>
    have hn : IsRun number := hp _ (by simp [groups])
    have hs : IsRun sides := hp _ (by simp [groups])
    have hk : IsRun drop := hp _ (by simp [groups])
    simp [read?, Shape.all, Shape.read?, chars, hne hn, digitRun?_append hn (hd _),
      digitRun?_append hs (hd _), digitRun?_self hk]
  | dice number sides =>
    have hn : IsRun number := hp _ (by simp [groups])
    have hs : IsRun sides := hp _ (by simp [groups])
    simp [read?, Shape.all, Shape.read?, chars, hne hn, digitRun?_append hn (hd _),
      digitRun?_self hs]
  | singleDie sides =>
    have hs : IsRun sides := hp _ (by simp [groups])
    have hpercent : sides ≠ ['%'] := by
      rintro rfl
      exact absurd (hs.isDigit '%' List.mem_cons_self) (by decide)
    simp [read?, Shape.all, Shape.read?, chars, hpercent, digitRun?_eq_none (hd _),
      digitRun?_self hs]
  | constant value =>
    have hv : IsRun value := hp _ (by simp [groups])
    have hne' : ∀ r', value ≠ 'd' :: r' := by
      intro r'
      rw [← List.append_nil value]
      exact hne hv
    simp [read?, Shape.all, Shape.read?, chars, hne', digitRun?_self hv]

/-- A text has a spelling exactly if it is the text of one. -/
theorem read?_eq_some_iff {s : List Char} {sp : Spelling} :
    read? s = some sp ↔ sp.Proper ∧ sp.chars = s := by
  constructor
  · intro h
    obtain ⟨shape, -, hshape⟩ := List.exists_of_findSome?_eq_some h
    exact Shape.read?_sound hshape
  · rintro ⟨hp, rfl⟩
    exact read?_chars hp

end Spelling
end DiceRoller
