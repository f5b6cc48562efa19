/-
# Blanks and the case of letters make no difference to an expression

Blanks are dropped when an expression is cut into tokens, and the body of each
term is lowered when it is read. Small letters in place of the capitals of ASCII
leave the signs and the blanks where they are, so the tokens are those of the
expression, with small letters too (`Token.scan_map_toLower`). The check looks
only at which of them are signs (`Token.check_map_lower`), and the reader sees
the same lowered text, which is also what its messages quote
(`Term.read_map_toLower`).

So two expressions that differ only in blanks and in the case of letters of ASCII
are evaluated alike on every source, in success and in failure
(`evaluate_caseless`). An expression of blanks only is told apart from an empty
one, which is why there has to be something in them.

Key definition: `Token.lower`.
Key theorems: `Token.scan_map_toLower`, `Token.check_map_lower`,
`Term.read_map_toLower`, `evalTokens_map_lower`, `evaluate_caseless`.
-/
import DiceRoller.Expression.Evaluation
import DiceRoller.Proofs.Expression.Tokens
import DiceRoller.Proofs.Text.Caseless

namespace DiceRoller

/-! ### Tokens with small letters -/

namespace Token

/-- The token with small letters in place of the capitals of ASCII. -/
def lower : Token → Token
  | sign s => sign s
  | body cs => body (cs.map Char.toLower)

@[simp] theorem isSign_lower (t : Token) : t.lower.isSign = t.isSign := by cases t <;> rfl

theorem consBody_map_lower (c : Char) (ts : List Token) :
    consBody c.toLower (ts.map lower) = (consBody c ts).map lower := by
  match ts with
  | [] => rfl
  | sign _ :: _ => rfl
  | body _ :: _ => rfl

theorem scan_map_toLower (cs : List Char) : scan (cs.map Char.toLower) = (scan cs).map lower := by
  induction cs with
  | nil => rfl
  | cons c cs ih =>
    rw [List.map_cons, scan_cons, scan_cons, ih, cons, cons, Sign.ofChar?_toLower]
    cases Sign.ofChar? c with
    | some s => rfl
    | none =>
      by_cases hb : Blank.isBlank c = true
      · simp [Blank.isBlank_toLower, hb]
      · simp [Blank.isBlank_toLower, hb, consBody_map_lower]

theorem doubleSignFrom?_map_lower (n : Nat) (ts : List Token) :
    doubleSignFrom? n (ts.map lower) = doubleSignFrom? n ts := by
  induction ts generalizing n with
  | nil => rfl
  | cons t ts ih =>
    cases ts with
    | nil => rfl
    | cons u rest =>
      have hrest := ih (n + 1)
      rw [List.map_cons] at hrest
      simp only [List.map_cons, doubleSignFrom?, isSign_lower, hrest]

/-- What is wrong with the order of the tokens shows in their signs. -/
theorem problem?_map_lower (ts : List Token) : problem? (ts.map lower) = problem? ts := by
  unfold problem?
  rw [List.getLast?_map]
  cases ts.getLast? with
  | none => rfl
  | some t => simp [doubleSign?, doubleSignFrom?_map_lower]

theorem check_map_lower (ts : List Token) : check (ts.map lower) = (check ts).map (List.map lower) := by
  unfold check
  rw [problem?_map_lower]
  cases problem? ts <;> rfl

end Token

/-! ### Reading and rolling -/

theorem Term.read_map_toLower (line : List Char) : read (line.map Char.toLower) = read line := by
  rw [read, Blank.remove_map_toLower, Lower.text_map_toLower, read]

theorem evalTerm_map_toLower (o : Options) (sign : Sign) (body : List Char) :
    evalTerm o sign (body.map Char.toLower) = evalTerm o sign body := by
  have hline : sign.char :: body.map Char.toLower = (sign.char :: body).map Char.toLower := by
    rw [List.map_cons, Sign.toLower_char]
  rw [evalTerm, hline, Term.read_map_toLower, evalTerm]

theorem evalTokens_map_lower (o : Options) (sign : Sign) (tokens : List Token) :
    evalTokens o sign (tokens.map Token.lower) = evalTokens o sign tokens := by
  induction tokens generalizing sign with
  | nil => rfl
  | cons token rest ih =>
    cases token with
    | sign s => exact ih s
    | body b => simp only [List.map_cons, Token.lower, evalTokens, evalTerm_map_toLower, ih]

/-- The terms of an expression follow from its tokens with small letters. -/
theorem evalTerms_eq_lower (o : Options) {expression : String} (hne : expression ≠ "") :
    evalTerms o expression =
      Evaluation.ofExcept (Token.check ((Token.scan expression.toList).map Token.lower)) >>=
        evalTokens o .plus := by
  have hlower : ∀ x : Except Fault (List Token),
      (Evaluation.ofExcept (x.map (List.map Token.lower)) >>= evalTokens o .plus) =
        (Evaluation.ofExcept x >>= evalTokens o .plus) := by
    intro x
    cases x with
    | error f => rfl
    | ok tokens => exact evalTokens_map_lower o .plus tokens
  rw [Token.check_map_lower, hlower, evalTerms, if_neg hne]

/-- **Blanks and case do not matter.** Two expressions that are the same but for
their blanks and the case of letters of ASCII, and are not all blank, are
evaluated alike: with the same result or the same fault, the same source left
behind and the same log. -/
theorem evaluate_caseless (o : Options) {e e' : String} (hne : Blank.remove e.toList ≠ [])
    (h : (Blank.remove e.toList).map Char.toLower = (Blank.remove e'.toList).map Char.toLower)
    (T : Trace) : evaluate o e T = evaluate o e' T := by
  have hne' : Blank.remove e'.toList ≠ [] := by
    intro hnil
    rw [hnil, List.map_nil, List.map_eq_nil_iff] at h
    exact hne h
  have hnonempty : ∀ {s : String}, Blank.remove s.toList ≠ [] → s ≠ "" := by
    rintro s hs rfl
    exact hs rfl
  have htokens : (Token.scan e.toList).map Token.lower = (Token.scan e'.toList).map Token.lower := by
    rw [← Token.scan_remove e.toList, ← Token.scan_map_toLower, h, Token.scan_map_toLower,
      Token.scan_remove]
  have hterms : evalTerms o e = evalTerms o e' := by
    rw [evalTerms_eq_lower o (hnonempty hne), htokens, ← evalTerms_eq_lower o (hnonempty hne')]
  rw [evaluate, hterms, evaluate]

/-- The second term cannot be read, and the sigma in it is lowered alike in both. -/
theorem evaluate_caseless_sigma :
    let T : Trace := ⟨.scripted (.ofList [4, 2]), []⟩
    Blank.remove "2D6 - AΣ".toList ≠ [] ∧
      (Blank.remove "2D6 - AΣ".toList).map Char.toLower =
        (Blank.remove " 2 d6-aΣ".toList).map Char.toLower ∧
      evaluate {} "2D6 - AΣ" T = evaluate {} " 2 d6-aΣ" T := by
  intro T
  have hne : Blank.remove "2D6 - AΣ".toList ≠ [] := by decide
  have h : (Blank.remove "2D6 - AΣ".toList).map Char.toLower =
      (Blank.remove " 2 d6-aΣ".toList).map Char.toLower := by decide
  exact ⟨hne, h, evaluate_caseless {} hne h T⟩

end DiceRoller
