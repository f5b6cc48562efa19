/-
# Reading a signed term

A term is read without regard to blanks and letter case. One sign may stand in
front of it, a plus if there is none.

Key definitions: `Term.splitSign`, `Term.readBody`, `Term.read`.
-/
import DiceRoller.Term.Spelling
import DiceRoller.Text.Lower

namespace DiceRoller
namespace Term

/-- The sign in front of a text, a plus if there is none, and the rest. -/
def splitSign : List Char → Sign × List Char
  | [] => (.plus, [])
  | c :: rest =>
    match Sign.ofChar? c with
    | some sign => (sign, rest)
    | none => (.plus, c :: rest)

/-- The term with the given sign and body. -/
def readBody (sign : Sign) (body : List Char) : Except Fault Term :=
  if body = [] then .error .emptyTerm
  else match Spelling.read? body with
    | some spelling => spelling.term sign
    | none => .error (.unrecognizedTerm (String.ofList body))

/-- The term that a line spells. -/
def read (line : List Char) : Except Fault Term :=
  let (sign, body) := splitSign (Lower.text (Blank.remove line))
  readBody sign body

end Term
end DiceRoller
