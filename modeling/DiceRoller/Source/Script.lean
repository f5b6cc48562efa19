/-
# Scripts: values that are known beforehand

A script hands out its values in order. A draw names the range that the value
must lie in; when the next value is outside, or none is left, the draw fails
and the script stays where it is.

Key definitions: `Script`, `Script.values`, `Script.index`, `Script.draw`,
`Script.drawBetween`.
Key theorems: `Script.values_of_draw`, `Script.draw_eq_ok_iff`.
-/
import DiceRoller.Datum

namespace DiceRoller

/-- A list of values and a place in it: the values handed out, the last one
first, and the values still to come. -/
structure Script where
  passed : List Int
  pending : List Int
  deriving DecidableEq, Repr

namespace Script

/-- A script from which nothing has been drawn. -/
def ofList (values : List Int) : Script := ⟨[], values⟩

/-- All values, in order. -/
def values (s : Script) : List Int := s.passed.reverse ++ s.pending

/-- The number of values handed out. -/
def index (s : Script) : Nat := s.passed.length

/-- The number of values still to come. -/
def remaining (s : Script) : Nat := s.pending.length

/-- Draws the next value, which must lie between `low` and `high`. -/
def draw (low high : Int) (s : Script) : EStateM.Result Fault Script Int :=
  match s.pending with
  | [] => .error (.scriptExhausted s.passed.length) s
  | v :: rest =>
    if low ≤ v ∧ v ≤ high then .ok v ⟨v :: s.passed, rest⟩
    else .error (Numeral.raise (.scriptedValueOutOfRange v low high)) s

/-- Whether a value lies between two bounds, the lower of which is asked first. -/
def isBetween (low high : Datum) (v : Int) : Except Fault Bool := do
  if !(← low.atMost (.number v)) then return false
  Datum.atMost (.number v) high

/-- The fault of a value outside the bounds. -/
def outside (v : Int) (low high : Datum) : Except Fault Fault := do
  return Numeral.raise (.scriptedValueOutside v (← low.write) (← high.write))

/-- Draws the next value, which must lie between two bounds of any kind. -/
def drawBetween (low high : Datum) (s : Script) : EStateM.Result Fault Script Int :=
  match s.pending with
  | [] => .error (.scriptExhausted s.passed.length) s
  | v :: rest =>
    match isBetween low high v, outside v low high with
    | .ok true, _ => .ok v ⟨v :: s.passed, rest⟩
    | .ok false, .ok f => .error f s
    | .ok false, .error f => .error f s
    | .error f, _ => .error f s

/-- The fields of the script. -/
def record (s : Script) : String :=
  "ScriptedSource(values=[" ++ ", ".intercalate (s.values.map toString) ++ "], index="
    ++ toString s.index ++ ")"

/-- The numbers in the record. -/
def recordNumbers (s : Script) : List Int := s.values

/-- A draw succeeds exactly if the next value is in the range, and then hands
it out. -/
theorem draw_eq_ok_iff {low high v : Int} {s t : Script} :
    draw low high s = .ok v t ↔
      s.pending = v :: t.pending ∧ low ≤ v ∧ v ≤ high ∧ t.passed = v :: s.passed := by
  obtain ⟨passed, pending⟩ := s
  obtain ⟨passed', pending'⟩ := t
  cases pending with
  | nil => simp [draw]
  | cons w rest =>
    by_cases h : low ≤ w ∧ w ≤ high
    · simp only [draw, h, if_true, and_self, EStateM.Result.ok.injEq, Script.mk.injEq,
        List.cons.injEq]
      constructor
      · rintro ⟨rfl, rfl, rfl⟩; exact ⟨⟨rfl, rfl⟩, h.1, h.2, rfl⟩
      · rintro ⟨⟨rfl, rfl⟩, -, -, rfl⟩; exact ⟨rfl, rfl, rfl⟩
    · simp only [draw, h, if_false, reduceCtorEq, List.cons.injEq, false_iff]
      rintro ⟨⟨rfl, -⟩, h1, h2, -⟩
      exact h ⟨h1, h2⟩

/-- No draw changes the values of the script. -/
theorem values_of_draw {low high v : Int} {s t : Script} (h : draw low high s = .ok v t) :
    t.values = s.values := by
  obtain ⟨h1, -, -, h2⟩ := draw_eq_ok_iff.1 h
  simp [values, h1, h2]

end Script
end DiceRoller
