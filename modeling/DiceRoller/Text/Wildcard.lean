/-
# Wildcards: patterns for the names of files

In a pattern `*` stands for any text, `?` for any character, and a set in
brackets for one character in it, or, after `!`, for one not in it. A set
holds single characters and ranges `a-z`; a closing bracket right after the
opening one (or after `!`) belongs to the set. An opening bracket that is
never closed stands for itself. A pattern describes whole names.

The text of a set is cut into chunks at the hyphens of its ranges, which then
reach from the end of one chunk to the start of the next. A range that runs
backwards is taken out together with its two ends before anything else is
read, so that what is left may begin with a `!` of its own.

Whether pieces describe a text is said by `fitAll`. It is computed for all
rests of the text at once (`fitRests`), piece by piece from the last one, so
that the time grows with the product of the two lengths only.

Key definitions: `Wildcard.Item`, `Wildcard.Piece`, `Wildcard.chunks`,
`Wildcard.meet`, `Wildcard.setOf`, `Wildcard.parse`, `Wildcard.fitAll`,
`Wildcard.fitRests`, `Wildcard.matches?`.
Key theorems: `Wildcard.fitRests_eq`, `Wildcard.matches?_eq`.
-/

namespace DiceRoller
namespace Wildcard

/-- A member of a set: the characters from `low` to `high`. -/
structure Item where
  low : Char
  high : Char
  deriving DecidableEq, Repr

/-- The item of a single character. -/
def Item.single (c : Char) : Item := ⟨c, c⟩

/-- Whether the item has the character. -/
def Item.has (i : Item) (c : Char) : Bool := i.low ≤ c && c ≤ i.high

/-- A piece of a pattern. -/
inductive Piece where
  /-- Any text, also none. -/
  | anyText
  /-- Any one character. -/
  | anyChar
  /-- This character. -/
  | just (c : Char)
  /-- One character that has the sought membership in the items. -/
  | set (inside : Bool) (items : List Item)
  deriving DecidableEq, Repr

/-! ### Sets -/

/-- Puts a character in front of the first chunk. -/
def consChunk (c : Char) : List (List Char) → List (List Char)
  | [] => [[c]]
  | chunk :: rest => (c :: chunk) :: rest

/-- The chunks of the text of a set. So many characters at its start belong to
the first chunk in any case: a hyphen among them is a member, as is one at the
very end. After the hyphen of a range come its end and the start of the next
one, if there is one. -/
def chunks : Nat → List Char → List (List Char)
  | _, [] => [[]]
  | 0, '-' :: rest => if rest = [] then [['-']] else [] :: chunks 2 rest
  | 0, c :: rest => consChunk c (chunks 0 rest)
  | n + 1, c :: rest => consChunk c (chunks n rest)

/-- Puts a chunk in front of others. If the range between it and the next one
runs backwards, the two become one without the ends of the range. -/
def meet (chunk : List Char) : List (List Char) → List (List Char)
  | [] => [chunk]
  | next :: rest =>
    match chunk.getLast?, next with
    | some low, high :: after =>
      if high < low then (chunk.dropLast ++ after) :: rest else chunk :: next :: rest
    | _, _ => chunk :: next :: rest

/-- The items of a chunk and those that follow it. A hyphen after an empty
chunk makes no range and is a member. -/
def items : List Char → List (List Char) → List Item
  | chunk, [] => chunk.map .single
  | chunk, next :: rest =>
    match chunk.getLast?, next with
    | some low, high :: after => chunk.dropLast.map .single ++ ⟨low, high⟩ :: items after rest
    | _, _ => chunk.map .single ++ .single '-' :: items next rest

/-- The set of some chunks: a `!` in front asks for the characters that are
not in it. -/
def setOf : List (List Char) → Piece
  | [] => .set true []
  | ('!' :: chunk) :: rest => .set false (items chunk rest)
  | chunk :: rest => .set true (items chunk rest)

/-- The set of the text between brackets. -/
def readSet (text : List Char) : Piece :=
  setOf ((chunks (if text.head? = some '!' then 2 else 1) text).foldr meet [])

/-! ### Patterns -/

/-- The text of a set before the bracket that closes it, and the text after
that bracket. -/
def untilClosed : List Char → Option (List Char × List Char)
  | [] => none
  | ']' :: rest => some ([], rest)
  | c :: rest => (untilClosed rest).map fun p => (c :: p.1, p.2)

/-- The text up to the closing bracket, with so much put in front. -/
def closedAfter (start rest : List Char) : Option (List Char × List Char) :=
  (untilClosed rest).map fun p => (start ++ p.1, p.2)

/-- The text of a set that has been opened: a closing bracket in the first
place, or after a `!` there, is a member. -/
def setText : List Char → Option (List Char × List Char)
  | '!' :: ']' :: rest => closedAfter ['!', ']'] rest
  | ']' :: rest => closedAfter [']'] rest
  | '!' :: rest => closedAfter ['!'] rest
  | rest => closedAfter [] rest

/-- Reads at most `n` pieces. A pattern has no more pieces than characters. -/
def parseUpTo : Nat → List Char → List Piece
  | 0, _ => []
  | _ + 1, [] => []
  | n + 1, '*' :: rest => .anyText :: parseUpTo n rest
  | n + 1, '?' :: rest => .anyChar :: parseUpTo n rest
  | n + 1, '[' :: rest =>
    match setText rest with
    | some (text, rest) => readSet text :: parseUpTo n rest
    | none => .just '[' :: parseUpTo n rest
  | n + 1, c :: rest => .just c :: parseUpTo n rest

/-- The pieces of a pattern. -/
def parse (pattern : List Char) : List Piece := parseUpTo pattern.length pattern

/-! ### Names -/

/-- Whether the piece stands for the character. -/
def Piece.fits : Piece → Char → Bool
  | .anyText, _ => false
  | .anyChar, _ => true
  | .just c, d => c == d
  | .set inside items, c => items.any (·.has c) == inside

/-- Whether some rest of the text, the whole and the empty one included, has
the property. -/
def someRest (p : List Char → Bool) : List Char → Bool
  | [] => p []
  | c :: rest => p (c :: rest) || someRest p rest

/-- Whether the pieces describe the whole text. -/
def fitAll : List Piece → List Char → Bool
  | [], s => s.isEmpty
  | .anyText :: ps, s => someRest (fitAll ps) s
  | _ :: _, [] => false
  | p :: ps, c :: rest => p.fits c && fitAll ps rest

/-- The answers for all rests of a text, the text itself first. -/
def forRests (p : List Char → Bool) : List Char → List Bool
  | [] => [p []]
  | c :: rest => p (c :: rest) :: forRests p rest

/-- Each answer, or any of those after it. -/
def anyAfter : List Bool → List Bool
  | [] => []
  | b :: bs =>
    match anyAfter bs with
    | [] => [b]
    | c :: cs => (b || c) :: c :: cs

/-- The answers for one more piece that stands for one character, from those
for the pieces after it. -/
def oneMore (p : Piece) : List Char → List Bool → List Bool
  | c :: rest, _ :: b :: bs => (p.fits c && b) :: oneMore p rest (b :: bs)
  | _, _ => [false]

/-- For all rests of the text, whether the pieces describe them. -/
def fitRests : List Piece → List Char → List Bool
  | [], s => forRests List.isEmpty s
  | .anyText :: ps, s => anyAfter (fitRests ps s)
  | p :: ps, s => oneMore p s (fitRests ps s)

/-- Whether the pattern describes the whole name. -/
def matches? (pattern name : String) : Bool :=
  ((fitRests (parse pattern.toList) name.toList).head?).getD false

/-! ### The computation agrees with the description -/

theorem head?_forRests (p : List Char → Bool) (s : List Char) :
    (forRests p s).head? = some (p s) := by
  cases s <;> rfl

theorem anyAfter_forRests (p : List Char → Bool) (s : List Char) :
    anyAfter (forRests p s) = forRests (someRest p) s := by
  induction s with
  | nil => rfl
  | cons c rest ih =>
    simp only [forRests, anyAfter, ih]
    cases rest <;> simp [forRests, someRest]

theorem oneMore_forRests {p : Piece} (h : p ≠ .anyText) (ps : List Piece) (s : List Char) :
    oneMore p s (forRests (fitAll ps) s) = forRests (fitAll (p :: ps)) s := by
  induction s with
  | nil => cases p <;> first | contradiction | rfl
  | cons c rest ih =>
    have one : fitAll (p :: ps) (c :: rest) = (p.fits c && fitAll ps rest) := by
      cases p <;> first | contradiction | rfl
    rw [forRests, forRests, one, ← ih]
    cases rest <;> rfl

theorem fitRests_eq (ps : List Piece) (s : List Char) :
    fitRests ps s = forRests (fitAll ps) s := by
  induction ps with
  | nil =>
    have : fitAll [] = List.isEmpty := rfl
    rw [fitRests, this]
  | cons p ps ih =>
    by_cases h : p = .anyText
    · subst h
      have : fitAll (.anyText :: ps) = someRest (fitAll ps) := rfl
      rw [fitRests, ih, anyAfter_forRests, this]
    · have : fitRests (p :: ps) s = oneMore p s (fitRests ps s) := by
        cases p <;> first | contradiction | rfl
      rw [this, ih, oneMore_forRests h]

/-- A pattern describes a name if its pieces do. -/
theorem matches?_eq (pattern name : String) :
    matches? pattern name = fitAll (parse pattern.toList) name.toList := by
  simp [matches?, fitRests_eq, head?_forRests]

/-- A pattern without special characters describes itself alone. -/
theorem fitAll_map_just (cs s : List Char) : fitAll (cs.map .just) s = (s == cs) := by
  induction cs generalizing s with
  | nil => cases s <;> rfl
  | cons c cs ih =>
    cases s with
    | nil => rfl
    | cons d s => simp [fitAll, Piece.fits, ih, Bool.beq_comm]

end Wildcard
end DiceRoller
