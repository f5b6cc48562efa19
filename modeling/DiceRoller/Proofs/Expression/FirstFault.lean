/-
# The first fault ends an evaluation

The order of the tokens is checked before anything else, so what is wrong with
it is found with the source and the log as they were. After that the terms are
read and rolled one by one. An evaluation that fails has evaluated the tokens in
front of one term, and then fails to read that term or to roll it
(`evalTokens_of_error`); whatever stands after the term is not looked at, so
other tokens in its place make no difference (`evalTokens_append_of_error`).

`FailsAt` says where an evaluation fails, and `evalTerms_first_fault` that each
one that fails does so at one of its terms. A term that is read is rolled until
the source fails, unless the number of a tag or of the script is too long to be
written.

Key definitions: `signAfter`, `FailsAt`.
Key theorems: `evalTokens_of_error`, `evalTokens_append_of_error`,
`exists_failsAt`, `evalTerms_first_fault`.
-/
import DiceRoller.Proofs.Expression.Acceptance
import DiceRoller.Proofs.Expression.Replay
import DiceRoller.Proofs.Hand.Stuck

namespace DiceRoller

/-! ### Evaluating the first tokens -/

/-- The sign of the term that comes after the tokens, if the given one is that
of the first term. -/
def signAfter : Sign → List Token → Sign
  | s, [] => s
  | _, .sign s :: ts => signAfter s ts
  | _, .body _ :: ts => signAfter .plus ts

theorem signAfter_append_sign (sign s : Sign) (ts : List Token) :
    signAfter sign (ts ++ [.sign s]) = s := by
  induction ts generalizing sign with
  | nil => rfl
  | cons t ts ih =>
    cases t with
    | sign s' => exact ih s'
    | body b => exact ih .plus

variable {o : Options} {sign : Sign} {before after tokens : List Token} {body : List Char}
  {parts : List Part} {f : Fault} {T T' T₁ : Trace} {expression : String}

theorem evalTokens_append_sign (o : Options) (sign s : Sign) (ts : List Token) :
    evalTokens o sign (ts ++ [.sign s]) = evalTokens o sign ts := by
  induction ts generalizing sign with
  | nil => rfl
  | cons t ts ih =>
    cases t with
    | sign s' => exact ih s'
    | body b => rw [List.cons_append, evalTokens, evalTokens, ih]

/-- An evaluation that fails has evaluated the tokens in front of a term, and
fails at that. -/
theorem evalTokens_of_error (herr : evalTokens o sign tokens T = .error f T') :
    ∃ before body after parts T₁, tokens = before ++ .body body :: after ∧
      evalTokens o sign before T = .ok parts T₁ ∧
      evalTerm o (signAfter sign before) body T₁ = .error f T' := by
  induction tokens generalizing sign T with
  | nil => cases herr
  | cons t ts ih =>
    cases t with
    | sign s =>
      obtain ⟨before, body, after, parts, T₁, rfl, hbefore, hterm⟩ := ih herr
      exact ⟨.sign s :: before, body, after, parts, T₁, rfl, hbefore, hterm⟩
    | body b =>
      rcases cons_eq_error_iff.1 herr with hfirst | ⟨part, T₂, hfirst, hrest⟩
      · exact ⟨[], b, ts, [], T, rfl, rfl, hfirst⟩
      · obtain ⟨before, body, after, parts, T₁, rfl, hbefore, hterm⟩ := ih hrest
        exact ⟨.body b :: before, body, after, part :: parts, T₁, rfl,
          cons_eq_ok_iff.2 ⟨part, T₂, parts, hfirst, hbefore, rfl⟩, hterm⟩

theorem evalTokens_append_of_error (hbefore : evalTokens o sign before T = .ok parts T₁)
    (hterm : evalTerm o (signAfter sign before) body T₁ = .error f T') (after : List Token) :
    evalTokens o sign (before ++ .body body :: after) T = .error f T' := by
  induction before generalizing sign T parts with
  | nil =>
    cases hbefore
    exact cons_eq_error_iff.2 (.inl hterm)
  | cons t ts ih =>
    cases t with
    | sign s => exact ih hbefore hterm
    | body b =>
      obtain ⟨part, T₂, parts, hfirst, hrest, -⟩ := cons_eq_ok_iff.1 hbefore
      exact cons_eq_error_iff.2 (.inr ⟨part, T₂, hfirst, ih hrest hterm⟩)

theorem log_of_evalTokens (hok : evalTokens o sign tokens T = .ok parts T') :
    T'.log = T.log ++ parts.flatMap Part.entries := by
  obtain ⟨terms, hread⟩ := readTokens_of_ok hok
  rw [evalTokens_of_readTokens hread] at hok
  exact log_of_rollTerms hok

theorem short_of_evalTerms {p : Script} {log : List LogEntry}
    (hok : evalTerms o expression ⟨.scripted p, log⟩ = .ok parts T') :
    ∃ q, T'.source = .scripted q ∧ (p.Short → q.Short) := by
  obtain ⟨terms, -, hroll⟩ := evalTerms_eq_ok_iff.1 hok
  obtain ⟨drawn, hd⟩ := rollTerms_deals hroll
  obtain ⟨rest, hpending, hsource⟩ := hd.scripted rfl
  refine ⟨_, hsource, fun hp vs hvs => hp vs ?_⟩
  rw [hpending]
  exact hvs.trans (List.suffix_append _ _).isInfix

/-! ### The term that fails -/

theorem evalTerms_of_inOrder (h : Token.InOrder (Token.scan expression.toList)) :
    evalTerms o expression T = evalTokens o .plus (Token.scan expression.toList) T := by
  have hne : expression ≠ "" := by
    rintro rfl
    cases h
  unfold evalTerms
  rw [if_neg hne, h.check_eq_ok]
  rfl

theorem roll_eq_error_iff {t : DiceTerm} : Evaluation.roll o t T = .error f T' ↔
    o.rollTerm t T.source = .error f T'.source ∧ T'.log = T.log := by
  obtain ⟨source', log'⟩ := T'
  unfold Evaluation.roll
  cases hroll : o.rollTerm t T.source with
  | ok h s =>
    constructor
    · intro herr
      cases herr
    · rintro ⟨herr, -⟩
      cases herr
  | error f s =>
    constructor
    · intro herr
      cases herr
      exact ⟨rfl, rfl⟩
    · rintro ⟨herr, hlog⟩
      cases herr
      cases hlog
      rfl

theorem evalTerm_eq_error_iff : evalTerm o sign body T = .error f T' ↔ T'.log = T.log ∧
    ((Term.read (sign.char :: body) = .error f ∧ T'.source = T.source) ∨
      ∃ t, Term.read (sign.char :: body) = .ok (.dice t) ∧
        o.rollTerm t T.source = .error f T'.source) := by
  rw [evalTerm_eq, bind_eq_error_iff]
  constructor
  · rintro (hfirst | ⟨term, T₁, hfirst, hroll⟩)
    · obtain ⟨hread, rfl⟩ := Evaluation.ofExcept_eq_error_iff.1 hfirst
      exact ⟨rfl, .inl ⟨hread, rfl⟩⟩
    · obtain ⟨hread, rfl⟩ := Evaluation.ofExcept_eq_ok_iff.1 hfirst
      cases term with
      | constant c => cases hroll
      | dice t =>
        rcases bind_eq_error_iff.1 hroll with hroll | ⟨h, _, -, hpart⟩
        · obtain ⟨hterm, hlog⟩ := roll_eq_error_iff.1 hroll
          exact ⟨hlog, .inr ⟨t, hread, hterm⟩⟩
        · cases hpart
  · obtain ⟨source', log'⟩ := T'
    rintro ⟨hlog, ⟨hread, hsource⟩ | ⟨t, hread, hterm⟩⟩
    · cases hlog
      cases hsource
      exact .inl (Evaluation.ofExcept_eq_error_iff.2 ⟨hread, rfl⟩)
    · refine .inr ⟨.dice t, T, Evaluation.ofExcept_eq_ok_iff.2 ⟨hread, rfl⟩, ?_⟩
      exact bind_eq_error_iff.2 (.inl (roll_eq_error_iff.2 ⟨hterm, hlog⟩))

/-- The evaluation fails at the body: the tokens in front of it and of its sign
have been evaluated by themselves, with the first trace, to the parts and the
second trace. -/
structure FailsAt (o : Options) (tokens : List Token) (T : Trace) (f : Fault) (T' : Trace)
    (before : List Token) (lead : Option Sign) (body : List Char) (parts : List Part)
    (T₁ : Trace) : Prop where
  tokens_eq : ∃ after, tokens = before ++ lead.toList.map .sign ++ .body body :: after
  /-- There is nothing in front of the term, or a whole expression and a sign. -/
  evaluated : before = [] ∧ parts = [] ∧ T₁ = T ∨
    before ≠ [] ∧ lead ≠ none ∧ evalTerms o (Token.text before) T = .ok parts T₁
  /-- The log has one more entry for each dice term in front of the body. -/
  log_eq : T'.log = T.log ++ parts.flatMap Part.entries
  /-- The term is not read, with the source untouched; or it is dice, and they
  are not rolled. -/
  failed : (Term.read ((lead.getD .plus).char :: body) = .error f ∧ T'.source = T₁.source) ∨
    ∃ t, Term.read ((lead.getD .plus).char :: body) = .ok (.dice t) ∧
      o.rollTerm t T₁.source = .error f T'.source
  /-- Nothing that comes after the body matters. -/
  unaffected : ∀ expression : String, Token.InOrder (Token.scan expression.toList) →
    before ++ lead.toList.map .sign ++ [.body body] <+: Token.scan expression.toList →
    evalTerms o expression T = .error f T'

theorem evalTerms_text {cs : List Char} {rest : List Token} (ho : Token.InOrder before)
    (hscan : Token.scan cs = before ++ rest) :
    evalTerms o (Token.text before) T = evalTokens o .plus before T := by
  have htext : Token.scan (Token.text before).toList = before := by
    rw [Token.text, String.toList_ofList]
    refine Token.scan_flatMap_chars (fun b hb => ?_) ho.isChain_bodies
    refine @Token.isBodyChar_of_mem_scan cs b ?_
    rw [hscan]
    exact List.mem_append_left _ hb
  rw [← htext] at ho
  rw [evalTerms_of_inOrder ho, htext]

theorem exists_failsAt (ho : Token.InOrder (Token.scan expression.toList))
    (herr : evalTerms o expression T = .error f T') :
    ∃ before lead body parts T₁, FailsAt o (Token.scan expression.toList) T f T' before lead body
      parts T₁ := by
  rw [evalTerms_of_inOrder ho] at herr
  obtain ⟨front, body, after, parts, T₁, hscan, hfront, hterm⟩ := evalTokens_of_error herr
  obtain ⟨hlog, hfailed⟩ := evalTerm_eq_error_iff.1 hterm
  have hentries : T'.log = T.log ++ parts.flatMap Part.entries := by
    rw [hlog, log_of_evalTokens hfront]
  have hothers : ∀ expression : String, Token.InOrder (Token.scan expression.toList) →
      front ++ [.body body] <+: Token.scan expression.toList →
      evalTerms o expression T = .error f T' := by
    rintro expression ho' ⟨after', hscan'⟩
    rw [evalTerms_of_inOrder ho', ← hscan', List.append_assoc, List.singleton_append]
    exact evalTokens_append_of_error hfront hterm after'
  rw [hscan] at ho
  rcases ho.split with ⟨lead, rfl⟩ | ⟨before, s, rfl, hbefore⟩
  · have hsign : signAfter .plus (lead.toList.map .sign) = lead.getD .plus := by
      cases lead <;> rfl
    have hnone : parts = [] ∧ T₁ = T := by
      cases lead <;> cases hfront <;> exact ⟨rfl, rfl⟩
    rw [hsign] at hfailed
    exact ⟨[], lead, body, parts, T₁, ⟨after, hscan⟩, .inl ⟨rfl, hnone⟩, hentries, hfailed,
      hothers⟩
  · rw [signAfter_append_sign] at hfailed
    rw [evalTokens_append_sign] at hfront
    have hne : before ≠ [] := by
      rintro rfl
      cases hbefore
    have htext : evalTerms o (Token.text before) T = .ok parts T₁ := by
      rw [List.append_assoc] at hscan
      rw [evalTerms_text hbefore hscan, hfront]
    exact ⟨before, some s, body, parts, T₁, ⟨after, hscan⟩, .inr ⟨hne, nofun, htext⟩, hentries,
      hfailed, hothers⟩

theorem writable_sides_of_read {t : DiceTerm} (hbody : Blank.remove body = body)
    (hread : Term.read (sign.char :: body) = .ok (.dice t)) : Numeral.writable t.sides = true := by
  obtain ⟨form, -, hform⟩ := (Term.read_eq_ok_iff hbody).1 hread
  exact (Form.writable_of_dice hform).2

/-- A term that can be read fails with a fault of the source, unless a number of
the options or of the script is too long. -/
theorem FailsAt.fault {p : Script} {log : List LogEntry} {lead : Option Sign}
    (hf : FailsAt o (Token.scan expression.toList) ⟨.scripted p, log⟩ f T' before lead body parts
      T₁) :
    Term.read ((lead.getD .plus).char :: body) = .error f ∨ f.OfSource ∨
      f = .numeralTooLongToWrite ∧ (o.tagNumbers.all Numeral.writable = false ∨ ¬ p.Short) := by
  rcases hf.failed with ⟨hread, -⟩ | ⟨t, hread, hroll⟩
  · exact .inl hread
  refine .inr ?_
  have hsides : Numeral.writable t.sides = true := by
    refine writable_sides_of_read ?_ hread
    obtain ⟨after, hscan⟩ := hf.tokens_eq
    refine @Token.remove_body expression.toList body ?_
    rw [hscan]
    exact List.mem_append_right _ List.mem_cons_self
  have hleft : ∃ q, T₁.source = .scripted q ∧ (p.Short → q.Short) := by
    rcases hf.evaluated with ⟨-, -, rfl⟩ | ⟨-, -, hok⟩
    · exact ⟨p, rfl, id⟩
    · exact short_of_evalTerms hok
  obtain ⟨q, hsource, hshort⟩ := hleft
  rw [hsource] at hroll
  rcases Options.fault_of_rollTerm hsides hroll with hsrc | ⟨rfl, htags | hlong⟩
  · exact .inl hsrc
  · exact .inr ⟨rfl, .inl htags⟩
  · exact .inr ⟨rfl, .inr fun hp => hlong (hshort hp)⟩

/-! ### The first fault -/

theorem evalTerms_empty : evalTerms o "" T = .error .invalidExpression T := by
  unfold evalTerms
  rw [if_pos rfl]
  rfl

/-- What is wrong with the order of the tokens is found before anything else. -/
theorem evalTerms_of_problem (hf : Token.problem? (Token.scan expression.toList) = some f)
    (hne : expression ≠ "") : evalTerms o expression T = .error f T := by
  have hcheck : Token.check (Token.scan expression.toList) = .error f := by rw [Token.check, hf]
  unfold evalTerms
  rw [if_neg hne, hcheck]
  rfl

theorem evalTerms_of_not_inOrder (ho : ¬ Token.InOrder (Token.scan expression.toList))
    (herr : evalTerms o expression T = .error f T') :
    T' = T ∧ (f = .invalidExpression ∨ Token.problem? (Token.scan expression.toList) = some f) := by
  by_cases hempty : expression = ""
  · subst hempty
    cases evalTerms_empty.symm.trans herr
    exact ⟨rfl, .inl rfl⟩
  · obtain ⟨g, hproblem⟩ := Token.exists_problem? ho
    cases (evalTerms_of_problem hproblem hempty).symm.trans herr
    exact ⟨rfl, .inr hproblem⟩

/-- **The first fault ends an evaluation.** What is wrong with the order of the
tokens is found before anything is read or rolled: that there are none, else that
the last one is a sign, else the leftmost two signs side by side, by the place of
the first of them. If the order is right, an evaluation that fails does so at one
of the terms: those in front of it have been evaluated, it is not read or not
rolled, and nothing after it matters. On a script the term that can be read
fails with a fault of the source, unless a number of the tags or of the script is
too long to be written. -/
theorem evalTerms_first_fault (o : Options) (expression : String) (p : Script)
    (log : List LogEntry) :
    let tokens := Token.scan expression.toList
    let T : Trace := ⟨.scripted p, log⟩
    (tokens = [] → ∃ f, f.kind = .emptyExpression ∧ evalTerms o expression T = .error f T) ∧
    (∀ s, tokens.getLast? = some (.sign s) →
      evalTerms o expression T = .error .trailingSign T) ∧
    (∀ b before s s' after, tokens.getLast? = some (.body b) →
      tokens = before ++ .sign s :: .sign s' :: after →
      (before ++ [.sign s]).IsChain (fun t u => ¬ (t.isSign = true ∧ u.isSign = true)) →
      evalTerms o expression T = .error (.consecutiveSigns (before.length + 1)) T) ∧
    ∀ b f T', tokens.getLast? = some (.body b) →
      tokens.IsChain (fun t u => ¬ (t.isSign = true ∧ u.isSign = true)) →
      evalTerms o expression T = .error f T' →
      ∃ before lead body parts T₁, FailsAt o tokens T f T' before lead body parts T₁ ∧
        (Term.read ((lead.getD .plus).char :: body) = .error f ∨ f.OfSource ∨
          f = .numeralTooLongToWrite ∧
            (o.tagNumbers.all Numeral.writable = false ∨ ¬ p.Short)) := by
  intro tokens T
  have hne : ∀ t, tokens.getLast? = some t → expression ≠ "" := by
    rintro t hlast rfl
    cases hlast
  refine ⟨fun hnil => ?_, fun s hlast => ?_, fun b before s s' after hlast hsigns hchain => ?_,
    fun b f T' hlast hchain herr => ?_⟩
  · by_cases hempty : expression = ""
    · subst hempty
      exact ⟨.invalidExpression, rfl, evalTerms_empty⟩
    · refine ⟨.emptyExpression, rfl, evalTerms_of_problem ?_ hempty⟩
      show Token.problem? tokens = _
      rw [hnil]
      rfl
  · refine evalTerms_of_problem ?_ (hne _ hlast)
    rw [Token.problem?, hlast]
    rfl
  · refine evalTerms_of_problem ?_ (hne _ hlast)
    have hplace : Token.doubleSign? tokens = some (1 + before.length) := by
      rw [Token.doubleSign?, hsigns, Token.doubleSignFrom?_of_leftmost hchain]
    rw [Token.problem?, hlast, hplace, Nat.add_comm]
    rfl
  · have ho : Token.InOrder tokens :=
      Token.inOrder_of_isChain ⟨b, hlast⟩ hchain (Token.isChain_scan _)
    obtain ⟨before, lead, body, parts, T₁, hfails⟩ := exists_failsAt ho herr
    exact ⟨before, lead, body, parts, T₁, hfails, hfails.fault⟩

/-- The script ends within the dice of the second term, in front of a term that
could not be read. -/
theorem evalTerms_first_fault_exhausted :
    let T : Trace := ⟨.scripted (.ofList [5, 2, 3]), []⟩
    ∃ T' before lead body parts T₁,
      evalTerms {} "d6-3d4+d1" T = .error (.scriptExhausted 3) T' ∧
      T'.source = .scripted ⟨[3, 2, 5], []⟩ ∧
      FailsAt {} (Token.scan "d6-3d4+d1".toList) T (.scriptExhausted 3) T' before lead body parts
        T₁ := by
  intro T
  let d6 : DiceTerm := ⟨1, 1, 6, 0, by decide, by decide, by decide⟩
  let d4 : DiceTerm := ⟨-1, 3, 4, 0, by decide, by decide, by decide⟩
  have hscan : Token.scan "d6-3d4+d1".toList = [.body ['d', '6'], .sign .minus] ++
      .body ['3', 'd', '4'] :: [.sign .plus, .body ['d', '1']] := by decide +kernel
  have hread₁ : readTokens .plus [.body ['d', '6'], .sign .minus] = .ok [.dice d6] := by
    decide +kernel
  have hread₂ : Term.read ['-', '3', 'd', '4'] = .ok (.dice d4) := by decide +kernel
  have hsteps₁ : Modifier.Steps d6 (Options.modifiersFor {} d6) {} [5] { rolls := [5] } :=
    Options.steps_plain rfl rfl
  have hsteps₂ : Modifier.Steps d4 (Options.modifiersFor {} d4) {} [2, 3, 1]
      { rolls := [2, 3, 1] } := Options.steps_plain rfl rfl
  have hd6 := (Options.rollTerm_consumes hsteps₁ (by decide)).full [] [2, 3]
  have hends : [2, 3, 1] = [2, 3] ++ (1 : Int) :: [] := rfl
  obtain ⟨s, hd4, hsource⟩ := (Options.rollTerm_consumes hsteps₂ (by decide)).short hends [5]
  obtain ⟨T₁, hT₁, hfirst⟩ : ∃ T₁, T₁.source = .scripted ⟨[5], [2, 3]⟩ ∧
      evalTokens {} .plus [.body ['d', '6'], .sign .minus] T = .ok [.dice d6 { rolls := [5] }] T₁ := by
    rw [evalTokens_of_readTokens hread₁]
    exact ⟨_, rfl, cons_eq_ok_iff.2 ⟨_, _, _, rollPart_dice.2 ⟨_, _, hd6, rfl, rfl⟩, rfl, rfl⟩⟩
  have hroll : Options.rollTerm {} d4 T₁.source = .error (.scriptExhausted 3) s := by
    rw [hT₁]
    exact hd4
  have hterm : evalTerm {} .minus ['3', 'd', '4'] T₁ =
      .error (.scriptExhausted 3) ⟨s, T₁.log⟩ :=
    evalTerm_eq_error_iff.2 ⟨rfl, .inr ⟨d4, hread₂, hroll⟩⟩
  have ho : Token.InOrder (Token.scan "d6-3d4+d1".toList) := by
    rw [hscan]
    exact .unsigned (.cons (.cons .nil))
  have herr : evalTerms {} "d6-3d4+d1" T = .error (.scriptExhausted 3) ⟨s, T₁.log⟩ := by
    rw [evalTerms_of_inOrder ho, hscan]
    exact evalTokens_append_of_error hfirst hterm _
  obtain ⟨b, hlast⟩ := ho.getLast?
  obtain ⟨before, lead, body, parts, T₂, hfails, -⟩ :=
    (evalTerms_first_fault {} "d6-3d4+d1" (.ofList [5, 2, 3]) []).2.2.2 b _ _ hlast
      ho.isChain_signs herr
  exact ⟨_, before, lead, body, parts, T₂, herr, hsource, hfails⟩

/-! ### A tag that is too long -/

/-- The only term is read, and both values are faces of the die; yet the
evaluation fails, and not with a fault of the source. -/
theorem not_fails_at_term_of_long_threshold :
    let o : Options := { reroll := some ⟨(Nat.pow 10 Numeral.digitLimit : Nat)⟩ }
    Token.scan "d6".toList = [.body ['d', '6']] ∧ (∃ t, Term.read ['+', 'd', '6'] = .ok t) ∧
      (∃ T', evalTerms o "d6" ⟨.scripted (.ofList [3, 4]), []⟩ =
        .error .numeralTooLongToWrite T') ∧ ¬ Fault.OfSource .numeralTooLongToWrite := by
  have hlimit := not_writable_limit
  -- which number it is does not matter, and it is too large to be looked at
  generalize Nat.pow 10 Numeral.digitLimit = n at hlimit ⊢
  intro o
  let d6 : DiceTerm := ⟨1, 1, 6, 0, by decide, by decide, by decide⟩
  have hread : Term.read ['+', 'd', '6'] = .ok (.dice d6) := by decide +kernel
  have hterms : readTerms "d6" = .ok [.dice d6] := by decide +kernel
  have hroll := Options.rollTerm_of_unwritable (o := o) (t := d6) rfl rfl hlimit rfl (by decide)
  have hpart : rollPart o (.dice d6) ⟨.scripted (.ofList [3, 4]), []⟩ =
      .error .numeralTooLongToWrite ⟨.scripted ⟨[4, 3], []⟩, []⟩ :=
    bind_eq_error_iff.2 (.inl (roll_eq_error_iff.2 ⟨hroll, rfl⟩))
  have herr : evalTerms o "d6" ⟨.scripted (.ofList [3, 4]), []⟩ =
      .error .numeralTooLongToWrite ⟨.scripted ⟨[4, 3], []⟩, []⟩ := by
    rw [evalTerms_of_readTerms hterms]
    exact cons_eq_error_iff.2 (.inl hpart)
  exact ⟨by decide +kernel, ⟨_, hread⟩, ⟨_, herr⟩, by rintro (h | h) <;> cases h⟩

end DiceRoller
