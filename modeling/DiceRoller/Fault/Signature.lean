/-
# Signatures: how many values a call takes

A call takes some values by position that it needs, each of which has a name,
and some more that may be left out. Messages count the receiver of the call as
one of the values.

Key definitions: `Signature`, `Signature.check`.
Key theorem: `Signature.check_eq_ok_iff`.
-/
import DiceRoller.Fault

namespace DiceRoller

/-- What a call takes. -/
structure Signature where
  call : String
  /-- The names of the values that are needed. -/
  needed : List String
  /-- How many values may follow. -/
  optional : Nat
  deriving DecidableEq, Repr

namespace Signature

/-- The most values that the call takes. -/
def most (s : Signature) : Nat := s.needed.length + s.optional

/-- Whether the call takes so many values. -/
def check (s : Signature) (given : Nat) : Except Fault Unit :=
  if given < s.needed.length then .error (.misuse (.missing s.call (s.needed.drop given)))
  else if s.most < given then
    .error (.misuse (.tooMany s.call (s.needed.length + 1) (s.most + 1) (given + 1)))
  else .ok ()

theorem check_eq_ok_iff {s : Signature} {given : Nat} :
    s.check given = .ok () ↔ s.needed.length ≤ given ∧ given ≤ s.most := by
  unfold check
  split
  · simp; omega
  split
  · simp; omega
  · simp; omega

end Signature
end DiceRoller
