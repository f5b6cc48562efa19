/-
# Signs

A sign joins the terms of an expression and says whether the term after it is
added or subtracted.

Key definitions: `Sign`, `Sign.char`, `Sign.ofChar?`, `Sign.factor`.
Key theorem: `Sign.ofChar?_eq_some_iff`.
-/

namespace DiceRoller

/-- A plus or a minus. -/
inductive Sign where
  | plus
  | minus
  deriving DecidableEq, Repr

namespace Sign

/-- The sign as it is written. -/
def char : Sign → Char
  | plus => '+'
  | minus => '-'

/-- The sign that a character is. -/
def ofChar? (c : Char) : Option Sign :=
  if c = '+' then some plus else if c = '-' then some minus else none

/-- What a term with the sign is multiplied by. -/
def factor : Sign → Int
  | plus => 1
  | minus => -1

theorem ofChar?_eq_some_iff {c : Char} {s : Sign} : ofChar? c = some s ↔ c = s.char := by
  unfold ofChar?
  constructor
  · intro h
    split at h
    · next hc => cases h; exact hc
    · split at h
      · next hc => cases h; exact hc
      · cases h
  · rintro rfl
    cases s <;> rfl

@[simp] theorem ofChar?_char (s : Sign) : ofChar? s.char = some s :=
  ofChar?_eq_some_iff.2 rfl

end Sign
end DiceRoller
