/-
# Seeds

A seed is reduced modulo `2 ^ 32 - 1`. Where none is given it comes from the
clock: the seconds, multiplied by one more than each decimal digit of the
microseconds from the last one on, until at most one is left.

The clock counts seconds as a binary number: late in its range the
microseconds can round up to the next second. A real number as a seed is a
binary number too. A text as a seed is a template for the modulus, and what it
then says is not reduced any more.

Key definitions: `Seed.modulus`, `Seed.normalize`, `Clock`, `Clock.ofParts`,
`Clock.wholeSeconds`, `Seed.generate`, `Seed.ofDatum`, `Seed.sourceBy`,
`Seed.source`, `Seed.sourceOf`.
Key theorems: `Seed.normalize_eq_iff`, `Seed.sourceOfBy_number`.
-/
import DiceRoller.Binary
import DiceRoller.Datum
import DiceRoller.Source
import DiceRoller.Source.Engine
import DiceRoller.Text.Template

namespace DiceRoller

/-- A time, in millionths of a second after the epoch. -/
structure Clock where
  total : Int
  deriving DecidableEq, Repr

namespace Clock

/-- The time so many seconds and millionths of a second after the epoch. -/
def ofParts (seconds micro : Int) : Clock := ⟨seconds * 1000000 + micro⟩

/-- The millionths of a second that the clock shows beside its seconds. -/
def micro (c : Clock) : Nat := (c.total % 1000000).toNat

/-- The whole seconds of the clock, rounded down after the time in seconds has
been rounded to the digits of a binary number. -/
def wholeSeconds (c : Clock) : Int := (Binary.round c.total 1000000).floor

end Clock

namespace Seed

/-- Seeds are taken modulo this number, one less than `2 ^ 32`. -/
def modulus : Int := 4294967295

/-- The seed that a generator is made from. -/
def normalize (seed : Int) : Nat := (seed % modulus).toNat

/-- The product of one more than each digit, from the last one on, while the
number is above one. -/
def digitProduct (micro : Nat) : Nat :=
  if micro ≤ 1 then 1 else (micro % 10 + 1) * digitProduct (micro / 10)
  decreasing_by omega

/-- The seed that the clock gives. -/
def generate (c : Clock) : Nat := normalize (c.wholeSeconds * digitProduct c.micro)

/-- The seed that a real number stands for: its remainder, rounded down. -/
def ofReal (t : String) : Except Fault Int :=
  match Binary.ofDecimal? (Decimal.ofText t) with
  | some b => .ok (b.remainder modulus.toNat)
  | none => .error .notANumber

/-- The seed that a text stands for: the modulus is put into it, and the result
must be a numeral. -/
def ofText (s : String) : Except Fault Int := do
  Numeral.read (← Template.fill s.toList modulus.toNat)

/-- The seed that a datum stands for. What is neither a number nor a text has
no remainder. -/
def ofDatum : Datum → Except Fault Int
  | .number n => .ok (normalize n)
  | .truth b => .ok (normalize (if b then 1 else 0))
  | .real t => ofReal t
  | .text s => ofText s
  | d => .error (.misuse (.noOperation "%" d.kindName (Datum.number modulus).kindName))

section Source

/- How a generator is made from a reduced seed. -/
variable (make : Nat → Generator)

/-- The source of a reduced seed, which it keeps. -/
def sourceOfReduced (seed : Nat) : Source := .seeded { make seed with seed }

/-- The source of a seed. -/
def sourceBy (seed : Int) : Source := sourceOfReduced make (normalize seed)

/-- The source of a seed that is given as a datum. -/
def sourceOfBy (d : Datum) : Except Fault Source := do
  let seed ← ofDatum d
  if seed < 0 then throw .seedNegative
  return sourceOfReduced make seed.toNat

/-- Whole numbers have their own source. -/
theorem sourceOfBy_number (n : Int) : sourceOfBy make (.number n) = .ok (sourceBy make n) := by
  simp [sourceOfBy, ofDatum, sourceBy]
  rfl

end Source

/-- The source of a seed, with the engine as its generator. -/
def source (seed : Int) : Source := sourceBy Generator.ofSeed seed

/-- The source of a datum, with the engine as its generator. -/
def sourceOf (d : Datum) : Except Fault Source := sourceOfBy Generator.ofSeed d

/-- Seeds are the same exactly if they are congruent. -/
theorem normalize_eq_iff {a b : Int} : normalize a = normalize b ↔ a % modulus = b % modulus := by
  have ha := Int.emod_nonneg a (b := modulus) (by decide)
  have hb := Int.emod_nonneg b (b := modulus) (by decide)
  unfold normalize
  omega

/-- A seed that a generator is made from is below the modulus. -/
theorem normalize_lt (a : Int) : (normalize a : Int) < modulus := by
  have := Int.emod_lt_of_pos a (b := modulus) (by decide)
  have := Int.emod_nonneg a (b := modulus) (by decide)
  unfold normalize
  omega

end Seed
end DiceRoller
