/-
# Two evaluations side by side

Two evaluations of one expression, with options of their own, go alike if each dice
term is rolled alike with both (`evalTerms_alike`): the bodies are read alike, and each
roll starts from the source that the rolls before it have left. The logs need not be
the same, for they quote the hands.

Key definition: `Part.Beside`.
Key theorems: `Evaluation.roll_alike`, `evalTokens_alike`, `evalTerms_alike`.
-/
import DiceRoller.Proofs.Expression.Replay
import DiceRoller.Proofs.Source.Alike

namespace DiceRoller

/-! ### Steps of an evaluation -/

namespace Evaluation

theorem ofExcept_alike {α : Type} (c : Except Fault α) :
    Alike SameSource (ofExcept c : Evaluation α) (ofExcept c : Evaluation α) Eq SameSource :=
  .check_of (fun _ _ => id) (fun _ => rfl) (fun _ => rfl) (fun _ => rfl) (fun _ => rfl) c

/-- Two terms are rolled alike in an evaluation if they are by every source. -/
theorem roll_alike {o o' : Options} {t u : DiceTerm} {R : Hand → Hand → Prop}
    (h : ∀ s, EndsAlike R Eq (o.rollTerm t s) (o'.rollTerm u s)) :
    Alike SameSource (roll o t) (roll o' u) R SameSource := by
  intro S T hs
  obtain hs : S.source = T.source := hs
  unfold roll
  rw [hs]
  rcases (h T.source).fails_or_gives with
    ⟨f, s, s', hf, hf', hs'⟩ | ⟨hand, hand', s, s', hok, hok', hR, hs'⟩
  · rw [hf, hf']
    exact .error hs'
  · rw [hok, hok']
    exact .ok hR hs'

end Evaluation

/-! ### Evaluations -/

/-- Both parts are of the same term; if it is dice, the hands are related. -/
inductive Part.Beside (Q : DiceTerm → Hand → Hand → Prop) : Part → Part → Prop
  | constant (t : ConstantTerm) : Beside Q (.constant t) (.constant t)
  | dice {t : DiceTerm} {h h' : Hand} : Q t h h' → Beside Q (.dice t h) (.dice t h')

section

variable {o o' : Options} {Q : DiceTerm → Hand → Hand → Prop}
  (hroll : ∀ t s, EndsAlike (Q t) Eq (o.rollTerm t s) (o'.rollTerm t s))

include hroll

theorem rollPart_alike (t : Term) :
    Alike SameSource (rollPart o t) (rollPart o' t) (Part.Beside Q) SameSource := by
  cases t with
  | constant c => exact .pure (.constant c)
  | dice t => exact (Evaluation.roll_alike (hroll t)).bind fun _ _ hq => .pure (.dice hq)

theorem evalTerm_alike (sign : Sign) (body : List Char) :
    Alike SameSource (evalTerm o sign body) (evalTerm o' sign body) (Part.Beside Q) SameSource := by
  rw [evalTerm_eq, evalTerm_eq]
  refine (Evaluation.ofExcept_alike (Term.read (sign.char :: body))).bind fun t _ ht => ?_
  subst ht
  exact rollPart_alike hroll t

theorem evalTokens_alike (sign : Sign) (tokens : List Token) :
    Alike SameSource (evalTokens o sign tokens) (evalTokens o' sign tokens)
      (List.Forall₂ (Part.Beside Q)) SameSource := by
  induction tokens generalizing sign with
  | nil => exact .pure .nil
  | cons token tokens ih =>
    cases token with
    | sign s => exact ih s
    | body b => exact (evalTerm_alike hroll sign b).cons fun _ _ _ => ih .plus

/-- An expression is evaluated alike with options that roll every dice term alike. -/
theorem evalTerms_alike (e : String) : Alike SameSource (evalTerms o e) (evalTerms o' e)
    (List.Forall₂ (Part.Beside Q)) SameSource := by
  unfold evalTerms
  by_cases he : e = ""
  · rw [if_pos he, if_pos he]
    exact .throw (fun _ _ => id) _
  · rw [if_neg he, if_neg he]
    refine (Evaluation.ofExcept_alike (Token.check (Token.scan e.toList))).bind
      fun tokens _ htokens => ?_
    subst htokens
    exact evalTokens_alike hroll .plus tokens

end
end DiceRoller
