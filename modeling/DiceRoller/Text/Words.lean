/-
# Words of a command

A command is split into words at blanks. Quotes join: between single quotes
every character stands for itself; between double quotes too, but there a
backslash escapes a double quote or a backslash. Outside quotes a backslash
escapes any character. A pair of quotes with nothing inside is an empty word.

Key definitions: `Words.Mode`, `Words.splitFrom`, `Words.split`.
-/

namespace DiceRoller
namespace Words

/-- What keeps a command from being split. -/
inductive Problem where
  /-- A quote is not closed. -/
  | openQuote
  /-- The command ends in a backslash. -/
  | nothingEscaped
  deriving DecidableEq, Repr

/-- The text of the fault. -/
def Problem.message : Problem → String
  | .openQuote => "No closing quotation"
  | .nothingEscaped => "No escaped character"

/-- Where in a command the reader stands. -/
inductive Mode where
  | plain
  /-- After a backslash outside quotes. -/
  | escaped
  /-- Between single quotes. -/
  | single
  /-- Between double quotes. -/
  | double
  /-- After a backslash between double quotes. -/
  | doubleEscaped
  deriving DecidableEq, Repr

/-- The characters that separate words. -/
def isSeparator (c : Char) : Bool := c == ' ' || c == '\t' || c == '\r' || c == '\n'

/-- The word under way, if there is one, in front of the words after it. -/
def close (word : Option (List Char)) (words : List String) : List String :=
  match word with
  | none => words
  | some cs => String.ofList cs :: words

/-- The word under way with the characters added. -/
def extend (word : Option (List Char)) (cs : List Char) : Option (List Char) :=
  some (word.getD [] ++ cs)

/-- The words of the rest of a command, with the word under way. -/
def splitFrom : Mode → Option (List Char) → List Char → Except Problem (List String)
  | .plain, word, [] => .ok (close word [])
  | .escaped, _, [] => .error .nothingEscaped
  | .doubleEscaped, _, [] => .error .nothingEscaped
  | .single, _, [] => .error .openQuote
  | .double, _, [] => .error .openQuote
  | .plain, word, c :: rest =>
    if isSeparator c then (splitFrom .plain none rest).map (close word)
    else if c = '\\' then splitFrom .escaped word rest
    else if c = '\'' then splitFrom .single (extend word []) rest
    else if c = '"' then splitFrom .double (extend word []) rest
    else splitFrom .plain (extend word [c]) rest
  | .escaped, word, c :: rest => splitFrom .plain (extend word [c]) rest
  | .single, word, c :: rest =>
    if c = '\'' then splitFrom .plain word rest else splitFrom .single (extend word [c]) rest
  | .double, word, c :: rest =>
    if c = '"' then splitFrom .plain word rest
    else if c = '\\' then splitFrom .doubleEscaped word rest
    else splitFrom .double (extend word [c]) rest
  | .doubleEscaped, word, c :: rest =>
    splitFrom .double (extend word (if c = '"' ∨ c = '\\' then [c] else ['\\', c])) rest

/-- The words of a command. -/
def split (command : String) : Except Problem (List String) :=
  splitFrom .plain none command.toList

end Words
end DiceRoller
