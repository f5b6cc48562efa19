/-
# Quoted texts

A text is quoted between single quotes, or between double quotes if it holds
a single quote and no double one. Inside, the backslash and the quote used
are escaped by a backslash, line feed, carriage return and tab by their
letters, and whatever else is not printable by its code point in two, four or
eight hexadecimal digits.

Key definitions: `Quoted.quoteFor`, `Quoted.escape`, `Quoted.text`.
-/
import DiceRoller.Text.QuotedTable

namespace DiceRoller
namespace Quoted

/-- Whether a character is shown as it is. -/
def isPrintable (c : Char) : Bool :=
  !unprintable.any fun r => r.1 ≤ c.toNat && c.toNat ≤ r.2

/-- The last `width` hexadecimal digits of a number. -/
def hex : Nat → Nat → List Char
  | 0, _ => []
  | width + 1, n => hex width (n / 16) ++ [Nat.digitChar (n % 16)]

/-- The quote that a text is put between. -/
def quoteFor (s : List Char) : Char := if '\'' ∈ s ∧ '"' ∉ s then '"' else '\''

/-- A character as it stands between quotes. -/
def escape (quote c : Char) : List Char :=
  if c = quote ∨ c = '\\' then ['\\', c]
  else if c = '\n' then ['\\', 'n']
  else if c = '\r' then ['\\', 'r']
  else if c = '\t' then ['\\', 't']
  else if isPrintable c then [c]
  else if c.toNat < 0x100 then '\\' :: 'x' :: hex 2 c.toNat
  else if c.toNat < 0x10000 then '\\' :: 'u' :: hex 4 c.toNat
  else '\\' :: 'U' :: hex 8 c.toNat

/-- The text between its quotes. -/
def chars (s : List Char) : List Char :=
  quoteFor s :: (s.flatMap (escape (quoteFor s)) ++ [quoteFor s])

/-- The text between its quotes, as a string. -/
def text (s : String) : String := String.ofList (chars s.toList)

end Quoted
end DiceRoller
