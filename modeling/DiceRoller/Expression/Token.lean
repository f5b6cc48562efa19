/-
# Tokens of an expression

An expression is cut into signs and the bodies of terms between them; blanks
are dropped. The tokens are in order if they are not empty, do not end in a
sign and hold no two signs side by side.

Key definitions: `Token`, `Token.scan`, `Token.check`.
Key theorems: `Token.scan_sign`, `Token.scan_blank`, `Token.flatten_scan`.
-/
import DiceRoller.Fault
import DiceRoller.Sign
import DiceRoller.Text.Blank

namespace DiceRoller

/-- A sign, or the body of a term. -/
inductive Token where
  | sign (s : Sign)
  | body (chars : List Char)
  deriving DecidableEq, Repr

namespace Token

/-- The text of a token. -/
def chars : Token → List Char
  | sign s => [s.char]
  | body cs => cs

/-- Whether a token is a sign. -/
def isSign : Token → Bool
  | sign _ => true
  | body _ => false

/-- The token that a text by itself is. -/
def ofChars : List Char → Token
  | [c] =>
    match Sign.ofChar? c with
    | some s => sign s
    | none => body [c]
  | cs => body cs

/-- Puts a character in front of the tokens, into the first one if that is a
body. -/
def consBody (c : Char) : List Token → List Token
  | body cs :: ts => body (c :: cs) :: ts
  | ts => body [c] :: ts

/-- Puts a character of the expression in front of its tokens. -/
def cons (c : Char) (ts : List Token) : List Token :=
  match Sign.ofChar? c with
  | some s => sign s :: ts
  | none => if Blank.isBlank c then ts else consBody c ts

/-- The tokens of an expression. -/
def scan (expression : List Char) : List Token := expression.foldr cons []

/-- The place, counted from `position`, of the first sign that is followed by
a sign. -/
def doubleSignFrom? (position : Nat) : List Token → Option Nat
  | [] => none
  | [_] => none
  | t :: u :: rest =>
    if t.isSign && u.isSign then some position else doubleSignFrom? (position + 1) (u :: rest)

/-- The place, counted from 1, of the first sign that is followed by a sign. -/
def doubleSign? (ts : List Token) : Option Nat := doubleSignFrom? 1 ts

/-- The first thing wrong with the order of the tokens. -/
def problem? (ts : List Token) : Option Fault :=
  match ts.getLast? with
  | none => some .emptyExpression
  | some t => if t.isSign then some .trailingSign else (doubleSign? ts).map .consecutiveSigns

/-- Passes the tokens on if they are in order. -/
def check (ts : List Token) : Except Fault (List Token) :=
  match problem? ts with
  | some f => .error f
  | none => .ok ts

/-! ### What the scanner does to each character -/

@[simp] theorem scan_nil : scan [] = [] := rfl

theorem scan_cons (c : Char) (cs : List Char) : scan (c :: cs) = cons c (scan cs) := rfl

theorem scan_sign (s : Sign) (cs : List Char) : scan (s.char :: cs) = sign s :: scan cs := by
  simp [scan_cons, cons]

theorem scan_blank {c : Char} (hs : Sign.ofChar? c = none) (hb : Blank.isBlank c = true)
    (cs : List Char) : scan (c :: cs) = scan cs := by
  simp [scan_cons, cons, hs, hb]

/-- A sign is not blank. -/
theorem isBlank_char (s : Sign) : Blank.isBlank s.char = false := by cases s <;> rfl

theorem flatMap_consBody (c : Char) (ts : List Token) :
    (consBody c ts).flatMap chars = c :: ts.flatMap chars := by
  match ts with
  | [] => rfl
  | body _ :: _ => rfl
  | sign _ :: _ => rfl

/-- The tokens one after the other are the expression without its blanks. -/
theorem flatten_scan (cs : List Char) : (scan cs).flatMap chars = Blank.remove cs := by
  induction cs with
  | nil => rfl
  | cons c cs ih =>
    rw [scan_cons, cons]
    split
    · next s hs =>
      obtain rfl := Sign.ofChar?_eq_some_iff.1 hs
      simp [Blank.remove_cons_of_not_blank (isBlank_char s), chars, ih]
    · next hs =>
      by_cases hb : Blank.isBlank c = true
      · simp [hb, ih, Blank.remove_cons_of_blank hb]
      · simp only [Bool.not_eq_true] at hb
        simp [hb, flatMap_consBody, ih, Blank.remove_cons_of_not_blank hb]

end Token
end DiceRoller
