/-
# Paths

A path is joined from parts by slashes; a part that is absolute starts it
anew. The module of a file is its path without any occurrence of the root of the
project and without the last three characters, the ending of its name.

Key definitions: `Path.join`, `Path.removeAll`, `Path.moduleOf`.
Key theorems: `Path.join_nil`, `Path.join_cons`.
-/

namespace DiceRoller
namespace Path

/-- A path with one more part. -/
def add (path part : String) : String :=
  if part.toList.head? = some '/' then part
  else if path.toList.getLast? = some '/' ∨ path = "" then path ++ part
  else path ++ "/" ++ part

/-- A path with more parts. -/
def join (path : String) (parts : List String) : String := parts.foldl add path

@[simp] theorem join_nil (path : String) : join path [] = path := rfl

@[simp] theorem join_cons (path part : String) (parts : List String) :
    join path (part :: parts) = join (add path part) parts := rfl

/-- The text without any occurrence of the pattern, taken from the left. The
characters counted by the first argument are passed over: they belong to the
occurrence found last. -/
def removeAllFrom (pattern : List Char) : Nat → List Char → List Char
  | _, [] => []
  | n + 1, _ :: rest => removeAllFrom pattern n rest
  | 0, c :: rest =>
    if pattern.isPrefixOf (c :: rest) then removeAllFrom pattern (pattern.length - 1) rest
    else c :: removeAllFrom pattern 0 rest

/-- The text without any occurrence of the pattern, which is not empty. -/
def removeAll (pattern s : List Char) : List Char := removeAllFrom pattern 0 s

/-- The module that a file of the project holds: every occurrence of the root
and the slash after it goes, and so do the last three characters. -/
def moduleOf (root path : String) : String :=
  let inner := removeAll (root ++ "/").toList path.toList
  String.ofList (inner.take (inner.length - 3))

/-- A line of the log: the module of the file it comes from, and the message. -/
def logLine (root path message : String) : String := moduleOf root path ++ " " ++ message

end Path
end DiceRoller
