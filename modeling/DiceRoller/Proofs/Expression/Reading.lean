/-
# Reading an expression apart from rolling it

An evaluation reads each term just before it is rolled. What the terms are does
not depend on what is rolled: `readTerms` reads all of them, and `rollTerms`
rolls a list of terms. Where the terms can be read, evaluating the expression is
rolling them (`evalTerms_of_readTerms`), and only there it succeeds
(`evalTerms_eq_ok_iff`).

The parts are then summed up, which succeeds exactly if their numbers may be
written (`summarize_eq_ok_iff`).

Key definitions: `readTokens`, `readTerms`, `rollTerms`.
Key theorems: `evalTerms_of_readTerms`, `evalTerms_eq_ok_iff`,
`rollTerms_append_eq_ok_iff`, `term_of_rollTerms`, `summarize_eq_ok_iff`,
`evaluate_eq_ok_iff`, `evaluate_eq_error_iff`.
-/
import DiceRoller.Expression.Evaluation
import DiceRoller.Proofs.Hand.Play

namespace DiceRoller

/-! ### Reading -/

/-- The terms among the tokens; the sign is the one that the next term has. -/
def readTokens : Sign → List Token → Except Fault (List Term)
  | _, [] => .ok []
  | _, .sign sign :: rest => readTokens sign rest
  | sign, .body body :: rest => do
    let term ← Term.read (sign.char :: body)
    let terms ← readTokens .plus rest
    return term :: terms

/-- The terms of an expression. -/
def readTerms (expression : String) : Except Fault (List Term) := do
  if expression = "" then throw .invalidExpression
  let tokens ← Token.check (Token.scan expression.toList)
  readTokens .plus tokens

/-! ### Rolling -/

/-- Rolls a term, if it is dice. -/
def rollPart (o : Options) : Term → Evaluation Part
  | .constant t => pure (.constant t)
  | .dice t => do
    let h ← Evaluation.roll o t
    return .dice t h

/-- Rolls the terms in order. -/
def rollTerms (o : Options) : List Term → Evaluation (List Part)
  | [] => pure []
  | t :: ts => do
    let part ← rollPart o t
    let parts ← rollTerms o ts
    return part :: parts

/-! ### Both at once -/

variable {o : Options} {sign : Sign} {tokens : List Token} {terms : List Term}
  {expression : String} {parts : List Part} {T T' : Trace}

theorem evalTerm_eq (o : Options) (sign : Sign) (body : List Char) :
    evalTerm o sign body = Evaluation.ofExcept (Term.read (sign.char :: body)) >>= rollPart o := by
  unfold evalTerm
  congr 1

theorem Evaluation.ofExcept_eq_ok_iff {α : Type} {x : Except Fault α} {a : α} :
    ofExcept x T = .ok a T' ↔ x = .ok a ∧ T = T' :=
  check_eq_ok_iff_of (fun _ => rfl) fun _ => rfl

theorem Evaluation.ofExcept_eq_error_iff {α : Type} {x : Except Fault α} {f : Fault} :
    (ofExcept x : Evaluation α) T = .error f T' ↔ x = .error f ∧ T = T' :=
  check_eq_error_iff_of (fun _ => rfl) fun _ => rfl

theorem Evaluation.ofExcept_bind_eq_ok_iff {α β : Type} {x : Except Fault α}
    {f : α → Evaluation β} {b : β} :
    (ofExcept x >>= f) T = .ok b T' ↔ ∃ a, x = .ok a ∧ f a T = .ok b T' :=
  check_bind_eq_ok_iff_of (fun _ => rfl) fun _ => rfl

theorem evalTokens_of_readTokens (h : readTokens sign tokens = .ok terms) :
    evalTokens o sign tokens = rollTerms o terms := by
  induction tokens generalizing sign terms with
  | nil =>
    cases h
    rfl
  | cons token rest ih =>
    cases token with
    | sign sign => exact ih h
    | body body =>
      obtain ⟨term, hterm, h₁⟩ := exceptBind_eq_ok_iff.1 h
      obtain ⟨terms, hterms, h₂⟩ := exceptBind_eq_ok_iff.1 h₁
      cases h₂
      rw [evalTokens, evalTerm_eq, hterm, ih hterms]
      rfl

theorem readTokens_of_ok (hok : evalTokens o sign tokens T = .ok parts T') :
    ∃ terms, readTokens sign tokens = .ok terms := by
  induction tokens generalizing sign T parts with
  | nil => exact ⟨[], rfl⟩
  | cons token rest ih =>
    cases token with
    | sign sign => exact ih hok
    | body body =>
      obtain ⟨part, T₁, parts, hpart, hparts, -⟩ := cons_eq_ok_iff.1 hok
      rw [evalTerm_eq] at hpart
      obtain ⟨term, hterm, -⟩ := Evaluation.ofExcept_bind_eq_ok_iff.1 hpart
      obtain ⟨terms, hterms⟩ := ih hparts
      refine ⟨term :: terms, ?_⟩
      rw [readTokens, exceptBind_of_ok hterm, exceptBind_of_ok hterms]
      rfl

theorem evalTerms_of_readTerms (h : readTerms expression = .ok terms) :
    evalTerms o expression = rollTerms o terms := by
  unfold readTerms at h
  unfold evalTerms
  by_cases he : expression = ""
  · rw [if_pos he] at h
    cases h
  · rw [if_neg he] at h ⊢
    obtain ⟨tokens, hcheck, hread⟩ := exceptBind_eq_ok_iff.1 h
    rw [hcheck]
    exact evalTokens_of_readTokens hread

/-- An evaluation succeeds exactly if the terms can be read, and then rolled. -/
theorem evalTerms_eq_ok_iff : evalTerms o expression T = .ok parts T' ↔
    ∃ terms, readTerms expression = .ok terms ∧ rollTerms o terms T = .ok parts T' := by
  constructor
  · intro hok
    obtain ⟨terms, hterms⟩ : ∃ terms, readTerms expression = .ok terms := by
      unfold evalTerms at hok
      unfold readTerms
      by_cases he : expression = ""
      · rw [if_pos he] at hok
        cases hok
      · rw [if_neg he] at hok ⊢
        obtain ⟨tokens, hcheck, htokens⟩ := Evaluation.ofExcept_bind_eq_ok_iff.1 hok
        obtain ⟨terms, hread⟩ := readTokens_of_ok htokens
        exact ⟨terms, by rw [hcheck]; exact hread⟩
    rw [evalTerms_of_readTerms hterms] at hok
    exact ⟨terms, hterms, hok⟩
  · rintro ⟨terms, hterms, hok⟩
    rwa [evalTerms_of_readTerms hterms]

/-! ### Rolls of terms -/

theorem rollPart_constant {c : ConstantTerm} {part : Part} :
    rollPart o (.constant c) T = .ok part T' ↔ part = .constant c ∧ T' = T := by
  rw [rollPart, pure_eq_ok_iff]
  constructor <;> rintro ⟨rfl, rfl⟩ <;> exact ⟨rfl, rfl⟩

theorem rollPart_dice {t : DiceTerm} {part : Part} :
    rollPart o (.dice t) T = .ok part T' ↔ ∃ h s, o.rollTerm t T.source = .ok h s ∧
      part = .dice t h ∧ T' = ⟨s, T.log ++ [⟨.debug, .rolling, h.logText t.text⟩]⟩ := by
  rw [rollPart, bind_eq_ok_iff]
  constructor
  · rintro ⟨h, T₁, hroll, hpart⟩
    cases hpart
    unfold Evaluation.roll at hroll
    split at hroll
    · next s hterm =>
      cases hroll
      exact ⟨h, s, hterm, rfl, rfl⟩
    · cases hroll
  · rintro ⟨h, s, hterm, rfl, rfl⟩
    refine ⟨h, _, ?_, rfl⟩
    rw [Evaluation.roll, hterm]

theorem term_of_rollPart {t : Term} {part : Part} (hok : rollPart o t T = .ok part T') :
    part.term = t := by
  cases t with
  | constant c =>
    obtain ⟨rfl, -⟩ := rollPart_constant.1 hok
    rfl
  | dice t =>
    obtain ⟨h, s, -, rfl, -⟩ := rollPart_dice.1 hok
    rfl

theorem term_of_rollTerms (hok : rollTerms o terms T = .ok parts T') :
    parts.map Part.term = terms := by
  induction terms generalizing T parts with
  | nil =>
    cases hok
    rfl
  | cons t ts ih =>
    obtain ⟨part, T₁, parts, hpart, hparts, rfl⟩ := cons_eq_ok_iff.1 hok
    rw [List.map_cons, term_of_rollPart hpart, ih hparts]

theorem rollTerms_append_eq_ok_iff {more : List Term} :
    rollTerms o (terms ++ more) T = .ok parts T' ↔
      ∃ ps T₁ qs, rollTerms o terms T = .ok ps T₁ ∧ rollTerms o more T₁ = .ok qs T' ∧
        ps ++ qs = parts := by
  induction terms generalizing T parts with
  | nil =>
    constructor
    · intro hok
      exact ⟨[], T, parts, rfl, hok, rfl⟩
    · rintro ⟨ps, T₁, qs, hps, hqs, rfl⟩
      cases hps
      exact hqs
  | cons t ts ih =>
    rw [List.cons_append, rollTerms, cons_eq_ok_iff, rollTerms]
    constructor
    · rintro ⟨part, T₁, rest, hpart, hrest, rfl⟩
      obtain ⟨ps, T₂, qs, hps, hqs, rfl⟩ := ih.1 hrest
      exact ⟨part :: ps, T₂, qs, cons_eq_ok_iff.2 ⟨part, T₁, ps, hpart, hps, rfl⟩, hqs, rfl⟩
    · rintro ⟨ps, T₂, qs, hps, hqs, rfl⟩
      obtain ⟨part, T₁, rest, hpart, hrest, rfl⟩ := cons_eq_ok_iff.1 hps
      exact ⟨part, T₁, rest ++ qs, hpart, ih.2 ⟨rest, T₂, qs, hrest, hqs, rfl⟩, rfl⟩

/-! ### The sum and the texts -/

theorem display_eq_ok_iff {p : Part} {text : String} :
    p.display = .ok text ↔ p.textNumbers.all Numeral.writable = true ∧ p.text = text :=
  Numeral.publish_eq_ok_iff

theorem display_of_error {p : Part} {f : Fault} (h : p.display = .error f) :
    f = .numeralTooLongToWrite ∧ p.textNumbers.all Numeral.writable = false := by
  unfold Part.display Numeral.publish at h
  split at h
  · cases h
  · next hw =>
    cases h
    exact ⟨rfl, Bool.eq_false_iff.2 hw⟩

/-- The texts of some parts are made exactly if the numbers in all of them may
be written. -/
theorem mapM_display_eq_ok_iff {texts : List String} : parts.mapM Part.display = .ok texts ↔
    (∀ p ∈ parts, p.textNumbers.all Numeral.writable = true) ∧ parts.map Part.text = texts := by
  induction parts generalizing texts with
  | nil =>
    constructor
    · intro h
      exact ⟨nofun, Except.ok.inj h⟩
    · rintro ⟨-, rfl⟩
      rfl
  | cons p ps ih =>
    rw [List.mapM_cons, exceptBind_eq_ok_iff, List.forall_mem_cons]
    constructor
    · rintro ⟨text, hp, h₁⟩
      obtain ⟨rest, hrest, h₂⟩ := exceptBind_eq_ok_iff.1 h₁
      obtain ⟨hw, rfl⟩ := display_eq_ok_iff.1 hp
      obtain ⟨hws, rfl⟩ := ih.1 hrest
      exact ⟨⟨hw, hws⟩, Except.ok.inj h₂⟩
    · rintro ⟨⟨hw, hws⟩, rfl⟩
      have hrest : ps.mapM Part.display = .ok (ps.map Part.text) := ih.2 ⟨hws, rfl⟩
      exact ⟨p.text, display_eq_ok_iff.2 ⟨hw, rfl⟩, exceptBind_of_ok hrest⟩

theorem mapM_display_of_error {f : Fault} (h : parts.mapM Part.display = .error f) :
    f = .numeralTooLongToWrite ∧ ∃ p ∈ parts, p.textNumbers.all Numeral.writable = false := by
  induction parts with
  | nil => cases h
  | cons p ps ih =>
    rw [List.mapM_cons] at h
    rcases exceptBind_eq_error_iff.1 h with hp | ⟨_, -, hrest⟩
    · obtain ⟨hf, hw⟩ := display_of_error hp
      exact ⟨hf, p, List.mem_cons_self, hw⟩
    · rcases exceptBind_eq_error_iff.1 hrest with hps | ⟨_, -, hcons⟩
      · obtain ⟨hf, q, hq, hw⟩ := ih hps
        exact ⟨hf, q, List.mem_cons_of_mem _ hq, hw⟩
      · cases hcons

theorem summarize_eq_ok_iff {out : Outcome} : summarize parts = .ok out ↔
    (∀ p ∈ parts, p.textNumbers.all Numeral.writable = true) ∧
      out = ⟨(parts.map Part.signedValue).foldr (· + ·) 0, parts.map Part.text⟩ := by
  rw [summarize, exceptBind_eq_ok_iff]
  constructor
  · rintro ⟨texts, htexts, hout⟩
    obtain ⟨hw, rfl⟩ := mapM_display_eq_ok_iff.1 htexts
    exact ⟨hw, (Except.ok.inj hout).symm⟩
  · rintro ⟨hw, rfl⟩
    exact ⟨parts.map Part.text, mapM_display_eq_ok_iff.2 ⟨hw, rfl⟩, rfl⟩

theorem summarize_of_error {f : Fault} (h : summarize parts = .error f) :
    f = .numeralTooLongToWrite ∧ ∃ p ∈ parts, p.textNumbers.all Numeral.writable = false := by
  rw [summarize] at h
  rcases exceptBind_eq_error_iff.1 h with h | ⟨_, -, h⟩
  · exact mapM_display_of_error h
  · cases h

/-- An evaluation succeeds exactly if the terms can be read and rolled, and
their parts summed up. -/
theorem evaluate_eq_ok_iff {out : Outcome} : evaluate o expression T = .ok out T' ↔
    ∃ terms parts, readTerms expression = .ok terms ∧ rollTerms o terms T = .ok parts T' ∧
      summarize parts = .ok out := by
  rw [evaluate, bind_eq_ok_iff]
  constructor
  · rintro ⟨parts, T₁, hparts, hout⟩
    obtain ⟨hsum, rfl⟩ := Evaluation.ofExcept_eq_ok_iff.1 hout
    obtain ⟨terms, hread, hroll⟩ := evalTerms_eq_ok_iff.1 hparts
    exact ⟨terms, parts, hread, hroll, hsum⟩
  · rintro ⟨terms, parts, hread, hroll, hsum⟩
    exact ⟨parts, T', evalTerms_eq_ok_iff.2 ⟨terms, hread, hroll⟩,
      Evaluation.ofExcept_eq_ok_iff.2 ⟨hsum, rfl⟩⟩

theorem evaluate_of_rollTerm {t : DiceTerm} {h : Hand} {s : Source}
    (hread : readTerms expression = .ok [.dice t]) (hroll : o.rollTerm t T.source = .ok h s)
    (hw : (t.textNumbers ++ h.textNumbers).all Numeral.writable = true) :
    evaluate o expression T = .ok ⟨t.sign * h.value, [h.text t.text]⟩
      ⟨s, T.log ++ [⟨.debug, .rolling, h.logText t.text⟩]⟩ := by
  refine evaluate_eq_ok_iff.2 ⟨_, [.dice t h], hread, ?_, ?_⟩
  · exact cons_eq_ok_iff.2 ⟨_, _, [], rollPart_dice.2 ⟨h, s, hroll, rfl, rfl⟩, rfl, rfl⟩
  · refine summarize_eq_ok_iff.2 ⟨List.forall_mem_singleton.2 hw, ?_⟩
    show _ = (⟨t.sign * h.value + 0, [h.text t.text]⟩ : Outcome)
    rw [Int.add_zero]

/-- It fails with one of the terms, or after all of them with the texts. -/
theorem evaluate_eq_error_iff {f : Fault} : evaluate o expression T = .error f T' ↔
    evalTerms o expression T = .error f T' ∨
      ∃ parts, evalTerms o expression T = .ok parts T' ∧ summarize parts = .error f := by
  rw [evaluate, bind_eq_error_iff]
  refine or_congr_right ⟨?_, ?_⟩
  · rintro ⟨parts, T₁, hparts, herr⟩
    obtain ⟨hsum, rfl⟩ := Evaluation.ofExcept_eq_error_iff.1 herr
    exact ⟨parts, hparts, hsum⟩
  · rintro ⟨parts, hparts, hsum⟩
    exact ⟨parts, T', hparts, Evaluation.ofExcept_eq_error_iff.2 ⟨hsum, rfl⟩⟩

end DiceRoller
