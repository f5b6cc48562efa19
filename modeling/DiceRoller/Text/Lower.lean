/-
# Lowering a text

A text is lowered character by character, from left to right; only the
capital sigma looks at what stands around it. Characters of a lowered text
that are ASCII come from ASCII characters, with two exceptions: the Kelvin
sign becomes `k`, and the capital I with a dot above becomes `i` and a dot of
its own.

Key definitions: `Lower.single`, `Lower.finalSigma`, `Lower.text`.
-/
import DiceRoller.Text.LowerTable

namespace DiceRoller
namespace Lower

/-- Whether the character lies in one of the closed ranges. -/
def within (ranges : List (Nat × Nat)) (c : Char) : Bool :=
  ranges.any fun r => r.1 ≤ c.toNat && c.toNat ≤ r.2

/-- Whether the run holds the code point. -/
def Run.holds (r : Run) (n : Nat) : Bool :=
  r.first ≤ n && n ≤ r.last && (n - r.first) % r.step == 0

/-- A character lowered by itself. -/
def single (c : Char) : Char :=
  if c.toNat < 0x80 then c.toLower
  else match runs.find? (·.holds c.toNat) with
    | some r => Char.ofNat (c.toNat + r.shift).toNat
    | none => c

/-- Whether the nearest character that counts is cased. -/
def casedNext (s : List Char) : Bool :=
  match s.dropWhile (within ignorable) with
  | [] => false
  | c :: _ => within cased c

/-- A capital sigma is final if a cased letter comes before it and none after
it. The characters before it are listed backwards. -/
def finalSigma (before after : List Char) : Bool := casedNext before && !casedNext after

/-- Lowers a text that comes after the given characters, listed backwards. -/
def textAfter : List Char → List Char → List Char
  | _, [] => []
  | before, c :: rest =>
    (if c = 'Σ' then [if finalSigma before rest then 'ς' else 'σ']
      else if c = 'İ' then ['i', Char.ofNat 0x307]
      else [single c]) ++ textAfter (c :: before) rest

/-- The text in lower case. -/
def text (s : List Char) : List Char := textAfter [] s

end Lower
end DiceRoller
