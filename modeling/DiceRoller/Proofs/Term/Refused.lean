/-
# Why a term is refused

A term is refused for one of the reasons that the rules of a body give. The
faults that say so are all of the tree of the library; only a term with a run of
digits that is too long fails with another one (`Term.read_of_error`), and it
always does if it is nothing but such a run (`Term.read_of_long_run`).

Key definition: `Fault.LongRun`.
Key theorems: `Term.read_of_error`, `Term.read_of_long_run`.
-/
import DiceRoller.Fault.Kind
import DiceRoller.Proofs.Term.Verdict

namespace DiceRoller

/-! ### Runs that are too long -/

/-- The text has a run of digits that is too long to be read, and the fault says
so. -/
def Fault.LongRun (f : Fault) (s : List Char) : Prop :=
  ∃ run, run <:+: s ∧ (∀ c ∈ run, c.isDigit = true) ∧ Numeral.digitLimit < run.length ∧
    f = .numeralTooLongToRead run.length

theorem Fault.LongRun.mono {f : Fault} {s s' : List Char} (h : f.LongRun s) (hs : s <:+: s') :
    f.LongRun s' := by
  obtain ⟨run, hrun, hrest⟩ := h
  exact ⟨run, hrun.trans hs, hrest⟩

theorem Spelling.infix_of_mem_groups {sp : Spelling} {g : List Char} (hg : g ∈ sp.groups) :
    g <:+: sp.chars := by
  cases sp with
  | percentile => cases hg
  | dropDice number sides drop =>
    simp only [groups, List.mem_cons, List.not_mem_nil, or_false] at hg
    rcases hg with rfl | rfl | rfl
    · exact ⟨[], 'd' :: sides ++ 'd' :: 'l' :: drop, by simp [chars]⟩
    · exact ⟨number ++ ['d'], 'd' :: 'l' :: drop, by simp [chars]⟩
    · exact ⟨number ++ 'd' :: sides ++ ['d', 'l'], [], by simp [chars]⟩
  | dice number sides =>
    simp only [groups, List.mem_cons, List.not_mem_nil, or_false] at hg
    rcases hg with rfl | rfl
    · exact ⟨[], 'd' :: sides, by simp [chars]⟩
    · exact ⟨number ++ ['d'], [], by simp [chars]⟩
  | singleDie sides =>
    obtain rfl := List.mem_singleton.1 hg
    exact ⟨['d'], [], by simp [chars]⟩
  | constant value =>
    obtain rfl := List.mem_singleton.1 hg
    exact List.infix_refl _

/-! ### Terms that are refused -/

namespace Term

variable {f : Fault} {sign : Sign} {body : List Char}

/-- Letters are lowered, but digits are not: a run of digits in the lowered text
stands in the text itself. -/
theorem longRun_of_lowered {sp : Spelling} (hp : sp.Proper)
    (hlow : sp.chars = Lower.textAfter [sign.char] body) (h : f.LongRun sp.chars) :
    f.LongRun body := by
  obtain ⟨run, ⟨front, back, hchars⟩, hdigits, hlong⟩ := h
  have hmap := (Lower.textAfter_eq_iff (Spelling.isAlphabet_of_mem hp) _ _).1 hlow.symm
  rw [← hchars] at hmap
  obtain ⟨s₁, s₂, rfl, hs₁, -⟩ := List.map_eq_append_iff.1 hmap
  obtain ⟨front', run', rfl, -, hrun⟩ := List.map_eq_append_iff.1 hs₁
  obtain rfl := (map_toLower_eq_run_iff hdigits).1 hrun
  exact ⟨run', ⟨front', s₂, rfl⟩, hdigits, hlong⟩

/-- A term is refused with a fault of the tree, unless it has a run of digits
that is too long to be read. -/
theorem read_of_error (hb : Blank.remove body = body) (herr : read (sign.char :: body) = .error f) :
    f.kind.isDice = true ∨ f.LongRun body := by
  rw [read_sign_cons hb] at herr
  cases readBody_eq_iff.1 herr with
  | @tooLong _ sp g hread hlong =>
    obtain ⟨hp, hchars⟩ := Shape.read?_sound hread
    have hg : g ∈ sp.groups := List.mem_of_find?_eq_some hlong
    have hlt : Numeral.digitLimit < g.length := by simpa using List.find?_some hlong
    exact .inr (longRun_of_lowered hp hchars
      ⟨g, Spelling.infix_of_mem_groups hg, (hp g hg).isDigit, hlt, rfl⟩)
  | _ => exact .inl rfl

theorem read_of_long_run (hb : Blank.remove body = body) (hrun : IsRun body)
    (hlong : Numeral.digitLimit < body.length) :
    read (sign.char :: body) = .error (.numeralTooLongToRead body.length) := by
  have hp : (Spelling.constant body).Proper := Spelling.proper_constant hrun
  have hlow : Lower.textAfter [sign.char] body = body :=
    (Lower.textAfter_eq_iff (Spelling.isAlphabet_of_mem hp) _ _).2
      ((map_toLower_eq_run_iff hrun.isDigit).2 rfl)
  have hread : Spelling.read? body = some (.constant body) := Spelling.read?_chars hp
  rw [read_sign_cons hb, hlow, readBody, if_neg hrun.ne_nil, hread]
  exact exceptBind_eq_error_iff.2 (.inl (ofDigits_of_lt hlong))

end Term

end DiceRoller
