/-
# Evaluation: from an expression to a total

The tokens of an expression are checked first, as a whole. Then its terms are
read and rolled from left to right; the first fault ends the evaluation. An
evaluation leaves behind its source and the log, with one entry for each term
that was rolled, also when it fails.

A dice term is worth its value times its sign. The result is the sum and one
text per term.

Key definitions: `Part`, `Trace`, `Evaluation`, `evalTokens`, `evalTerms`,
`evaluate`, `evaluateDatum`.
-/
import DiceRoller.Expression.Token
import DiceRoller.Hand.Pipeline
import DiceRoller.LogEntry
import DiceRoller.Term.Reader

namespace DiceRoller

/-- A term that has been evaluated. -/
inductive Part where
  | constant (t : ConstantTerm)
  | dice (t : DiceTerm) (h : Hand)
  deriving DecidableEq, Repr

namespace Part

/-- The term that was evaluated. -/
def term : Part → Term
  | constant t => .constant t
  | dice t _ => .dice t

/-- What the part contributes to the total. -/
def signedValue : Part → Int
  | constant t => t.signedValue
  | dice t h => t.sign * h.value

/-- The part as it is displayed. -/
def text : Part → String
  | constant t => t.text
  | dice t h => h.text t.text

/-- The numbers in the text, apart from those in tags. -/
def textNumbers : Part → List Int
  | constant t => t.textNumbers
  | dice t h => t.textNumbers ++ h.textNumbers

/-- The display of the part, if its numbers may be written. -/
def display (p : Part) : Except Fault String := Numeral.publish p.textNumbers p.text

end Part

/-- What an evaluation works with and leaves behind. -/
structure Trace where
  source : Source
  log : List LogEntry := []

/-- A step of an evaluation, which may fail and leaves its trace then too. -/
abbrev Evaluation (α : Type) := EStateM Fault Trace α

/-- The result of an evaluation. -/
structure Outcome where
  total : Int
  parts : List String
  deriving DecidableEq, Repr

namespace Evaluation

/-- Fails with the fault, or goes on with the value. -/
def ofExcept {α : Type} : Except Fault α → Evaluation α
  | .ok a => pure a
  | .error f => throw f

/-- Rolls a dice term and enters it into the log. -/
def roll (o : Options) (t : DiceTerm) : Evaluation Hand := fun trace =>
  match o.rollTerm t trace.source with
  | .ok h s => .ok h ⟨s, trace.log ++ [⟨.debug, .rolling, h.logText t.text⟩]⟩
  | .error f s => .error f { trace with source := s }

end Evaluation

/-- Evaluates the body of a term with the sign in front of it. -/
def evalTerm (o : Options) (sign : Sign) (body : List Char) : Evaluation Part := do
  match ← Evaluation.ofExcept (Term.read (sign.char :: body)) with
  | .constant t => return .constant t
  | .dice t =>
    let h ← Evaluation.roll o t
    return .dice t h

/-- Evaluates the terms among the tokens; the sign is the one that the next
term has. -/
def evalTokens (o : Options) : Sign → List Token → Evaluation (List Part)
  | _, [] => pure []
  | _, .sign sign :: rest => evalTokens o sign rest
  | sign, .body body :: rest => do
    let part ← evalTerm o sign body
    let parts ← evalTokens o .plus rest
    return part :: parts

/-- Evaluates the terms of an expression, in order. -/
def evalTerms (o : Options) (expression : String) : Evaluation (List Part) := do
  if expression = "" then throw .invalidExpression
  let tokens ← Evaluation.ofExcept (Token.check (Token.scan expression.toList))
  evalTokens o .plus tokens

/-- The sum and the texts of the parts. -/
def summarize (parts : List Part) : Except Fault Outcome := do
  let texts ← parts.mapM Part.display
  return ⟨(parts.map Part.signedValue).foldr (· + ·) 0, texts⟩

/-- Evaluates an expression. -/
def evaluate (o : Options) (expression : String) : Evaluation Outcome := do
  let parts ← evalTerms o expression
  Evaluation.ofExcept (summarize parts)

/-- Evaluates whatever is handed over as an expression; what is no text is
refused. -/
def evaluateDatum (o : Options) : Datum → Evaluation Outcome
  | .text expression => evaluate o expression
  | _ => throw .invalidExpression

/-- Evaluates the terms of whatever is handed over as an expression. -/
def evalDatumTerms (o : Options) : Datum → Evaluation (List Part)
  | .text expression => evalTerms o expression
  | _ => throw .invalidExpression

end DiceRoller
