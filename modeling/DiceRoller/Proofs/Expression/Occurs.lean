/-
# The terms that occur in an expression

A term occurs in an expression if it is read from one of its bodies, also where
another term cannot be read. Of the options an evaluation sees only what they make
of the dice terms that occur: two options by which each of these is rolled alike
give the same evaluation, whatever is wrong with the rest of the expression
(`evaluate_congr`). So options that can do nothing to any of these terms might as
well be left out (`evaluate_of_idle`).

Key definition: `Term.Occurs`.
Key theorems: `Term.Occurs.of_mem`, `evalTerms_congr`, `evaluate_congr`,
`evaluate_of_idle`.
-/
import DiceRoller.Proofs.Expression.Reading
import DiceRoller.Proofs.Expression.Tokens
import DiceRoller.Proofs.Hand.Idle

namespace DiceRoller

variable {o o' : Options} {terms : List Term} {expression : String} {t : Term}

/-- The term is read from a body of the expression, with a sign in front of it. -/
def Term.Occurs (expression : String) (t : Term) : Prop :=
  ∃ (sign : Sign) (body : List Char), Token.body body ∈ Token.scan expression.toList ∧
    Term.read (sign.char :: body) = .ok t

theorem exists_body_of_readTokens {sign : Sign} {tokens : List Token}
    (h : readTokens sign tokens = .ok terms) (ht : t ∈ terms) :
    ∃ (sign : Sign) (body : List Char), Token.body body ∈ tokens ∧
      Term.read (sign.char :: body) = .ok t := by
  induction tokens generalizing sign terms with
  | nil =>
    cases h
    cases ht
  | cons token tokens ih =>
    cases token with
    | sign s =>
      obtain ⟨sign', body, hbody, hread⟩ := ih h ht
      exact ⟨sign', body, List.mem_cons_of_mem _ hbody, hread⟩
    | body b =>
      obtain ⟨term, hterm, h⟩ := exceptBind_eq_ok_iff.1 h
      obtain ⟨rest, hrest, h⟩ := exceptBind_eq_ok_iff.1 h
      cases h
      rcases List.mem_cons.1 ht with rfl | ht
      · exact ⟨sign, b, List.mem_cons_self, hterm⟩
      · obtain ⟨sign', body, hbody, hread⟩ := ih hrest ht
        exact ⟨sign', body, List.mem_cons_of_mem _ hbody, hread⟩

theorem Term.Occurs.of_mem (h : readTerms expression = .ok terms) (ht : t ∈ terms) :
    t.Occurs expression := by
  unfold readTerms at h
  split at h
  · cases h
  · obtain ⟨tokens, hcheck, hread⟩ := exceptBind_eq_ok_iff.1 h
    obtain ⟨rfl, -⟩ := Token.inOrder_of_check hcheck
    exact exists_body_of_readTokens hread ht

/-! ### Options that roll the terms alike -/

theorem rollPart_congr (h : ∀ u, t = .dice u → o.rollTerm u = o'.rollTerm u) :
    rollPart o t = rollPart o' t := by
  cases t with
  | constant c => rfl
  | dice u =>
    funext T
    rw [rollPart, rollPart]
    unfold Evaluation.roll
    rw [h u rfl]

theorem evalTokens_congr {sign : Sign} {tokens : List Token}
    (h : ∀ (s : Sign) (b : List Char) (u : DiceTerm), Token.body b ∈ tokens →
      Term.read (s.char :: b) = .ok (.dice u) → o.rollTerm u = o'.rollTerm u) :
    evalTokens o sign tokens = evalTokens o' sign tokens := by
  induction tokens generalizing sign with
  | nil => rfl
  | cons token tokens ih =>
    have hrest {sign : Sign} : evalTokens o sign tokens = evalTokens o' sign tokens :=
      ih fun s b u hb => h s b u (List.mem_cons_of_mem _ hb)
    cases token with
    | sign s => exact hrest
    | body b =>
      have hfirst : evalTerm o sign b = evalTerm o' sign b := by
        rw [evalTerm_eq, evalTerm_eq]
        cases hread : Term.read (sign.char :: b) with
        | error f => rfl
        | ok t =>
          refine rollPart_congr fun u hu => h sign b u List.mem_cons_self ?_
          rw [hread, hu]
      rw [evalTokens, evalTokens, hfirst, hrest]

theorem evalTerms_congr
    (h : ∀ u : DiceTerm, (Term.dice u).Occurs expression → o.rollTerm u = o'.rollTerm u) :
    evalTerms o expression = evalTerms o' expression := by
  unfold evalTerms
  by_cases he : expression = ""
  · rw [if_pos he, if_pos he]
    rfl
  · rw [if_neg he, if_neg he]
    cases hcheck : Token.check (Token.scan expression.toList) with
    | error f => rfl
    | ok tokens =>
      obtain ⟨rfl, -⟩ := Token.inOrder_of_check hcheck
      exact evalTokens_congr fun s b u hb hread => h u ⟨s, b, hb, hread⟩

/-- An evaluation depends on the options only through the dice terms that occur. -/
theorem evaluate_congr
    (h : ∀ u : DiceTerm, (Term.dice u).Occurs expression → o.rollTerm u = o'.rollTerm u) :
    evaluate o expression = evaluate o' expression := by
  rw [evaluate, evaluate, evalTerms_congr h]

/-- **Options that cannot apply have no effect.** If the options can do nothing to any
dice term of the expression, then with each source and each log it is evaluated as
without options: to the same outcome or the same fault, with the same source left
behind and the same log, and its terms to the same hands. -/
theorem evaluate_of_idle (o : Options) (expression : String)
    (hidle : ∀ u : DiceTerm, (Term.dice u).Occurs expression → o.Idle u) (T : Trace) :
    evaluate o expression T = evaluate {} expression T ∧
      evalTerms o expression T = evalTerms {} expression T := by
  have hroll (u : DiceTerm) (hu : (Term.dice u).Occurs expression) :
      o.rollTerm u = Options.rollTerm {} u := Options.rollTerm_of_idle (hidle u hu)
  rw [evaluate_congr hroll, evalTerms_congr hroll]
  exact ⟨rfl, rfl⟩

/-- The reroll and the explosion look at both dice, and the second term cannot be
read. -/
theorem evaluate_of_idle_all :
    let o : Options := ⟨some ⟨0⟩, some ⟨0⟩, some ⟨0⟩, some ⟨.atLeast 7, 0⟩,
      some ⟨6, 2, by decide⟩, some ⟨20, 3, by decide⟩⟩
    let T : Trace := ⟨.scripted (.ofList [1, 6, 2]), []⟩
    (∀ u : DiceTerm, (Term.dice u).Occurs "2d6-x" → o.Idle u) ∧
      evaluate o "2d6-x" T = evaluate {} "2d6-x" T ∧
      evalTerms o "2d6-x" T = evalTerms {} "2d6-x" T := by
  intro o T
  have hscan : Token.scan "2d6-x".toList = [.body ['2', 'd', '6'], .sign .minus, .body ['x']] := by
    decide +kernel
  have hidle : ∀ u : DiceTerm, (Term.dice u).Occurs "2d6-x" → o.Idle u := by
    rintro u ⟨sign, body, hbody, hread⟩
    have hdice : Term.read (sign.char :: ['2', 'd', '6']) =
        .ok (.dice ⟨sign.factor, 2, 6, 0, by decide, by decide, by decide⟩) := by
      cases sign <;> decide +kernel
    have hunread : Term.read (sign.char :: ['x']) = .error (.unrecognizedTerm "x") := by
      cases sign <;> decide +kernel
    simp only [hscan, List.mem_cons, Token.body.injEq, reduceCtorEq, List.not_mem_nil, or_false,
      false_or] at hbody
    rcases hbody with rfl | rfl
    · cases hread.symm.trans hdice
      exact ⟨by simp [o], by simp [o], by simp [o], by simp [o], by simp, by simp⟩
    · cases hread.symm.trans hunread
  exact ⟨hidle, evaluate_of_idle o "2d6-x" hidle T⟩

end DiceRoller
