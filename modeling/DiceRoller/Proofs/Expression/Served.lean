/-
# Requests to one script

A source is asked for numbers and for dice directly, and by evaluations. One
that is scripted hands out its values in order, whoever asks for them, and
requests that fail are no exception: `Request.Turn` says of one request which
draws are answered for it, and that a fault of the script leaves it where the
last answered draw did, with the value pending that could not be handed out.

Which draws these are depends on the request. An evaluation rolls the dice of its
terms in order, and the parts of its outcome are made of their values; one that
fails has come to some of the terms only (`EvaluationDraws`).

The turns of a history follow each other, so the values handed out in it are the
first values of the script, each of them once (`Request.serveAll_turns`).

Key definitions: `Request`, `Request.serveAll`, `EvaluationDraws`,
`Request.AsksFor`, `Request.Draws`, `Request.Turn`, `Request.Turns`.
Key theorems: `exists_evaluationDraws`, `Request.exists_turn`,
`Request.serveAll_turns`.
-/
import DiceRoller.Proofs.Expression.Walk
import DiceRoller.Proofs.Source.Handed

namespace DiceRoller

/-! ### Requests -/

/-- What a source may be asked for: a number between two bounds, what a die with
the sides shows, or what an expression comes to. -/
inductive Request where
  | between (low high : Datum)
  | roll (sides : Datum)
  | evaluate (o : Options) (expression : Datum)

/-- What a request is answered with. -/
inductive Answer where
  | number (v : Int)
  | outcome (r : Outcome)
  deriving DecidableEq, Repr

/-- How a step ends, and the source that it leaves. -/
def settle {σ α : Type} (answer : α → Answer) (source : σ → Source) :
    EStateM.Result Fault σ α → Except Fault Answer × Source
  | .ok a s => (.ok (answer a), source s)
  | .error f s => (.error f, source s)

namespace Request

/-- Serves the request from the source. -/
def serve : Request → Source → Except Fault Answer × Source
  | between low high, s => settle .number id (Source.drawBetween low high s)
  | roll sides, s => settle .number id (Source.roll sides s)
  | evaluate o expression, s => settle .outcome Trace.source (evaluateDatum o expression ⟨s, []⟩)

/-- Serves the requests one after the other, going on also after one that
failed. -/
def serveAll : List Request → Source → List (Except Fault Answer) × Source
  | [], s => ([], s)
  | r :: rs, s =>
    let turn := r.serve s
    let later := serveAll rs turn.2
    (turn.1 :: later.1, later.2)

end Request

/-! ### What an evaluation draws -/

/-- The terms that the walk along the tokens comes by. -/
def Token.termsAfter (sign : Sign) (tokens : List Token) : List Term :=
  (walk sign tokens).filterMap fun u => (Term.read (u.1.char :: u.2)).toOption

/-- The terms of an expression that can be read. -/
def termsOf (expression : String) : List Term :=
  Token.termsAfter .plus (Token.scan expression.toList)

/-- The draws of a part that is made of the values. -/
def Part.drawsOf : Part → List Int → List Draw
  | constant _, _ => []
  | dice t _, vs => vs.map (.die t.sides)

/-- The draws of parts that are made of the values, one part after the other. -/
def dealtDraws (parts : List Part) (drawn : List (List Int)) : List Draw :=
  (List.zipWith Part.drawsOf parts drawn).flatten

/-- The draws of an evaluation that ends in this way. Each of the terms draws its
dice, as far as the evaluation goes. -/
inductive EvaluationDraws (o : Options) (terms : List Term) :
    Except Fault Outcome → List Draw → Prop
  | all {parts : List Part} {drawn : List (List Int)} {r : Outcome} :
      parts.map Part.term = terms → List.Forall₂ (Part.MadeOf o) parts drawn →
      summarize parts = .ok r → EvaluationDraws o terms (.ok r) (dealtDraws parts drawn)
  /-- Nothing was drawn for the part that the evaluation did not come to. -/
  | before {parts : List Part} {drawn : List (List Int)} {f : Fault} :
      parts.map Part.term <+: terms → List.Forall₂ (Part.MadeOf o) parts drawn →
      EvaluationDraws o terms (.error f) (dealtDraws parts drawn)
  /-- Some values were drawn for the dice that could not be rolled. -/
  | within {parts : List Part} {drawn : List (List Int)} {t : DiceTerm} {vs : List Int}
      {f : Fault} : parts.map Part.term ++ [.dice t] <+: terms →
      List.Forall₂ (Part.MadeOf o) parts drawn →
      EvaluationDraws o terms (.error f) (dealtDraws parts drawn ++ vs.map (.die t.sides))

section

variable {o : Options} {sign : Sign} {tokens before after : List Token} {terms : List Term}
  {parts : List Part} {drawn : List (List Int)} {p q : Script} {s' : Source} {f : Fault}
  {T' : Trace} {log : List LogEntry} {expression : String} {r : Outcome} {ds : List Draw}

theorem Token.termsAfter_eq (h : readTokens sign tokens = .ok terms) :
    termsAfter sign tokens = terms := by
  induction tokens generalizing sign terms with
  | nil =>
    cases h
    rfl
  | cons t ts ih =>
    cases t with
    | sign s => exact ih h
    | body b =>
      obtain ⟨term, hterm, h₁⟩ := exceptBind_eq_ok_iff.1 h
      obtain ⟨terms, hterms, h₂⟩ := exceptBind_eq_ok_iff.1 h₁
      cases h₂
      rw [← ih hterms, termsAfter, walk, List.filterMap_cons, hterm]
      rfl

theorem Token.termsAfter_append (sign : Sign) (before after : List Token) :
    termsAfter sign (before ++ after) =
      termsAfter sign before ++ termsAfter (signAfter sign before) after := by
  rw [termsAfter, walk_append, List.filterMap_append]
  rfl

theorem Deals.handsOut (hd : Deals o (.scripted p) parts drawn s') :
    ∃ q, s' = .scripted q ∧ p.HandsOut (dealtDraws parts drawn) q := by
  generalize hs : Source.scripted p = s at hd
  induction hd generalizing p with
  | nil => exact ⟨p, hs.symm, .nil⟩
  | constant _ ih => exact ih hs
  | dice _ hg _ ih =>
    subst hs
    obtain ⟨p₁, rfl, -⟩ := hg.exists_script
    obtain ⟨q, hq, hhands⟩ := ih rfl
    exact ⟨q, hq, hg.handsOut.append hhands⟩

theorem Term.not_ofSource_of_read {line : List Char} (h : Term.read line = .error f) :
    ¬ f.OfSource := by
  have hverdict := Term.readBody_eq_iff.1 h
  rintro (hkind | hkind) <;> cases hverdict <;> cases hkind

theorem not_ofSource_of_not_inOrder {T : Trace}
    (ho : ¬ Token.InOrder (Token.scan expression.toList))
    (herr : evalTerms o expression T = .error f T') : ¬ f.OfSource := by
  rcases (evalTerms_of_not_inOrder ho herr).2 with rfl | hproblem
  · rintro (hkind | hkind) <;> cases hkind
  · rcases Token.problem?_cases hproblem with rfl | rfl | ⟨n, rfl⟩ <;>
      rintro (hkind | hkind) <;> cases hkind

/-- Dice that cannot be rolled have drawn the values that the script handed out,
and it is stuck if the fault is its own. -/
theorem Options.handsOut_of_error {t : DiceTerm} {s : Source}
    (herr : o.rollTerm t (.scripted p) = .error f s) : ∃ (vs : List Int) (q : Script),
      s = .scripted q ∧ p.HandsOut (vs.map (.die t.sides)) q ∧
        (f.OfSource → q.Stuck t.sides f) := by
  obtain ⟨_, rfl, vs, h, q, hg, rfl, hwhy⟩ := Options.rollTerm_of_error herr
  refine ⟨vs, q, rfl, hg.handsOut, fun hf => ?_⟩
  rcases hwhy with hstuck | ⟨rfl, -⟩
  · exact hstuck
  · rcases hf with hf | hf <;> cases hf

theorem evalTokens_draws (herr : evalTokens o sign tokens ⟨.scripted p, log⟩ = .error f T') :
    ∃ ds q, T'.source = .scripted q ∧ p.HandsOut ds q ∧
      EvaluationDraws o (Token.termsAfter sign tokens) (.error f) ds ∧
      (f.OfSource → ∃ t, .dice t ∈ Token.termsAfter sign tokens ∧ q.Stuck t.sides f) := by
  obtain ⟨before, b, after, parts, T₁, rfl, hfront, hterm⟩ := evalTokens_of_error herr
  obtain ⟨terms, hread⟩ := readTokens_of_ok hfront
  rw [evalTokens_of_readTokens hread] at hfront
  obtain ⟨drawn, hd⟩ := rollTerms_deals hfront
  obtain ⟨p₁, hp₁, hhands⟩ := hd.handsOut
  have hterms : Token.termsAfter sign (before ++ .body b :: after) =
      parts.map Part.term ++ Token.termsAfter (signAfter sign before) (.body b :: after) := by
    rw [Token.termsAfter_append, Token.termsAfter_eq hread, term_of_rollTerms hfront]
  rcases (evalTerm_eq_error_iff.1 hterm).2 with ⟨hunread, hsource⟩ | ⟨t, hdice, hroll⟩
  · refine ⟨_, p₁, hsource.trans hp₁, hhands, .before ⟨_, hterms.symm⟩ hd.madeOf, fun hf => ?_⟩
    exact absurd hf (Term.not_ofSource_of_read hunread)
  · rw [hp₁] at hroll
    obtain ⟨vs, q, hq, hhands', hstuck⟩ := Options.handsOut_of_error hroll
    have hnext : Token.termsAfter (signAfter sign before) (.body b :: after) =
        .dice t :: Token.termsAfter .plus after := by
      rw [Token.termsAfter, Token.walk, List.filterMap_cons, hdice]
      rfl
    rw [hnext] at hterms
    refine ⟨_, q, hq, hhands.append hhands', .within ⟨Token.termsAfter .plus after, ?_⟩ hd.madeOf,
      fun hf => ⟨t, ?_, hstuck hf⟩⟩
    · rw [hterms, List.append_assoc, List.singleton_append]
    · rw [hterms]
      exact List.mem_append_right _ List.mem_cons_self

theorem termsOf_eq (h : readTerms expression = .ok terms) : termsOf expression = terms := by
  unfold readTerms at h
  split at h
  · cases h
  · obtain ⟨tokens, hcheck, hread⟩ := exceptBind_eq_ok_iff.1 h
    obtain ⟨rfl, -⟩ := Token.inOrder_of_check hcheck
    exact Token.termsAfter_eq hread

theorem evalTerms_draws (hok : evalTerms o expression ⟨.scripted p, log⟩ = .ok parts T') :
    parts.map Part.term = termsOf expression ∧ ∃ drawn q, T'.source = .scripted q ∧
      List.Forall₂ (Part.MadeOf o) parts drawn ∧ p.HandsOut (dealtDraws parts drawn) q := by
  obtain ⟨terms, hread, hroll⟩ := evalTerms_eq_ok_iff.1 hok
  obtain ⟨drawn, hd⟩ := rollTerms_deals hroll
  obtain ⟨q, hq, hhands⟩ := hd.handsOut
  refine ⟨?_, drawn, q, hq, hd.madeOf, hhands⟩
  rw [term_of_rollTerms hroll, termsOf_eq hread]

theorem evalTerms_draws_of_error
    (herr : evalTerms o expression ⟨.scripted p, log⟩ = .error f T') :
    ∃ ds q, T'.source = .scripted q ∧ p.HandsOut ds q ∧
      EvaluationDraws o (termsOf expression) (.error f) ds ∧
      (f.OfSource → ∃ t, .dice t ∈ termsOf expression ∧ q.Stuck t.sides f) := by
  by_cases ho : Token.InOrder (Token.scan expression.toList)
  · rw [evalTerms_of_inOrder ho] at herr
    exact evalTokens_draws herr
  · have hsource := not_ofSource_of_not_inOrder ho herr
    obtain ⟨rfl, -⟩ := evalTerms_of_not_inOrder ho herr
    have hdraws : EvaluationDraws o (termsOf expression) (.error f) (dealtDraws [] []) :=
      .before List.nil_prefix .nil
    exact ⟨_, p, rfl, .nil, hdraws, fun hf => absurd hf hsource⟩

/-- An evaluation with a script draws from it as its terms do, and leaves it where
the last value was handed out. -/
theorem exists_evaluationDraws (o : Options) (expression : String) (p : Script)
    (log : List LogEntry) : ∃ answer ds q,
      settle .outcome Trace.source (evaluate o expression ⟨.scripted p, log⟩) =
        (answer.map .outcome, .scripted q) ∧ p.HandsOut ds q ∧
      EvaluationDraws o (termsOf expression) answer ds ∧
      ∀ f, answer = .error f → f.OfSource →
        ∃ t, .dice t ∈ termsOf expression ∧ q.Stuck t.sides f := by
  cases heval : evaluate o expression ⟨.scripted p, log⟩ with
  | ok r T' =>
    obtain ⟨parts, _, hparts, hout⟩ := bind_eq_ok_iff.1 heval
    obtain ⟨hsum, rfl⟩ := Evaluation.ofExcept_eq_ok_iff.1 hout
    obtain ⟨hterms, drawn, q, hq, hmade, hhands⟩ := evalTerms_draws hparts
    exact ⟨.ok r, _, q, by rw [settle, hq]; rfl, hhands, .all hterms hmade hsum, nofun⟩
  | error f T' =>
    rcases evaluate_eq_error_iff.1 heval with herr | ⟨parts, hparts, hsum⟩
    · obtain ⟨ds, q, hq, hhands, hdraws, hstuck⟩ := evalTerms_draws_of_error herr
      refine ⟨.error f, ds, q, by rw [settle, hq]; rfl, hhands, hdraws, fun g hg => ?_⟩
      cases hg
      exact hstuck
    · obtain ⟨hterms, drawn, q, hq, hmade, hhands⟩ := evalTerms_draws hparts
      obtain ⟨rfl, -⟩ := summarize_of_error hsum
      refine ⟨.error .numeralTooLongToWrite, _, q, by rw [settle, hq]; rfl, hhands,
        .before (hterms ▸ List.prefix_rfl) hmade, fun g hg hf => ?_⟩
      cases hg
      rcases hf with hkind | hkind <;> cases hkind

theorem exists_die_of_mem_dealtDraws {d : Draw} (hd : d ∈ dealtDraws parts drawn) :
    ∃ t v, .dice t ∈ parts.map Part.term ∧ d = .die t.sides v := by
  induction parts generalizing drawn with
  | nil => simp [dealtDraws] at hd
  | cons part parts ih =>
    cases drawn with
    | nil => simp [dealtDraws] at hd
    | cons vs drawn =>
      rcases List.mem_append.1 (show d ∈ part.drawsOf vs ++ dealtDraws parts drawn from hd)
        with hd | hd
      · cases part with
        | constant c => cases hd
        | dice t h =>
          obtain ⟨v, -, rfl⟩ := List.mem_map.1 hd
          exact ⟨t, v, List.mem_cons_self, rfl⟩
      · obtain ⟨t, v, hterm, hdie⟩ := ih hd
        exact ⟨t, v, List.mem_cons_of_mem _ hterm, hdie⟩

theorem EvaluationDraws.exists_die {answer : Except Fault Outcome}
    (h : EvaluationDraws o terms answer ds) : ∀ d ∈ ds, ∃ t v, .dice t ∈ terms ∧
      d = .die t.sides v := by
  intro d hd
  cases h with
  | all hterms =>
    rw [← hterms]
    exact exists_die_of_mem_dealtDraws hd
  | before hfront =>
    obtain ⟨t, v, hterm, hdie⟩ := exists_die_of_mem_dealtDraws hd
    exact ⟨t, v, hfront.subset hterm, hdie⟩
  | @within _ _ t _ _ hfront =>
    rcases List.mem_append.1 hd with hd | hd
    · obtain ⟨t, v, hterm, hdie⟩ := exists_die_of_mem_dealtDraws hd
      exact ⟨t, v, hfront.subset (List.mem_append_left _ hterm), hdie⟩
    · obtain ⟨v, -, rfl⟩ := List.mem_map.1 hd
      exact ⟨t, v, hfront.subset (List.mem_append_right _ List.mem_cons_self), rfl⟩

end

/-! ### One request -/

namespace Request

/-- The request asks for a number between these bounds. -/
inductive AsksFor : Request → Datum → Datum → Prop
  | between {low high : Datum} : AsksFor (between low high) low high
  | roll {sides : Datum} : AsksFor (roll sides) (.number 1) sides
  | evaluate {o : Options} {expression : String} {t : DiceTerm} :
      .dice t ∈ termsOf expression →
      AsksFor (evaluate o (.text expression)) (.number 1) (.number t.sides)

/-- The draws of a request that is answered in this way. A number is one draw, and
no draw if it is refused; an evaluation draws as its terms do. -/
inductive Draws : Request → Except Fault Answer → List Draw → Prop
  | between {low high : Datum} {v : Int} :
      Draws (between low high) (.ok (.number v)) [⟨low, high, v⟩]
  | between_refused {low high : Datum} {f : Fault} : Draws (between low high) (.error f) []
  | roll {sides : Datum} {v : Int} :
      Draws (roll sides) (.ok (.number v)) [⟨.number 1, sides, v⟩]
  | roll_refused {sides : Datum} {f : Fault} : Draws (roll sides) (.error f) []
  | evaluate {o : Options} {expression : String} {answer : Except Fault Outcome}
      {ds : List Draw} : EvaluationDraws o (termsOf expression) answer ds →
      Draws (evaluate o (.text expression)) (answer.map .outcome) ds
  | no_text {o : Options} {d : Datum} : (∀ expression, d ≠ .text expression) →
      Draws (evaluate o d) (.error .invalidExpression) []

/-- One request to a script: how it is answered, the draws that are answered for
it, and what is left of the script. -/
structure Turn (r : Request) (p : Script) (answer : Except Fault Answer) (ds : List Draw)
    (q : Script) : Prop where
  served : r.serve (.scripted p) = (answer, .scripted q)
  draws : r.Draws answer ds
  handsOut : p.HandsOut ds q
  /-- A fault of the script is that of a draw which still fails in the same
  way. -/
  refused : ∀ f, answer = .error f → f.OfSource → ∃ low high, r.AsksFor low high ∧
    Source.drawBetween low high (.scripted q) = .error f (.scripted q)

variable {r : Request} {p q : Script} {answer : Except Fault Answer} {ds : List Draw}

theorem Draws.asksFor (h : r.Draws answer ds) : ∀ d ∈ ds, r.AsksFor d.low d.high := by
  cases h with
  | between => exact List.forall_mem_singleton.2 .between
  | between_refused => exact nofun
  | roll => exact List.forall_mem_singleton.2 .roll
  | roll_refused => exact nofun
  | evaluate hdraws =>
    intro d hd
    obtain ⟨t, v, hterm, rfl⟩ := hdraws.exists_die d hd
    exact .evaluate hterm
  | no_text => exact nofun

/-- A number that is asked for directly is drawn, or it is refused and the script
stays where it is. -/
theorem exists_turn_of_draw {low high : Datum}
    (hserve : ∀ s, r.serve s = settle .number id (Source.drawBetween low high s))
    (hdraws : ∀ v, r.Draws (.ok (.number v)) [⟨low, high, v⟩])
    (hrefused : ∀ f, r.Draws (.error f) []) (hasks : r.AsksFor low high) (p : Script) :
    ∃ answer ds q, r.Turn p answer ds q := by
  cases hdraw : Source.drawBetween low high (.scripted p) with
  | ok v s =>
    obtain ⟨rest, -, -, rfl⟩ := Source.drawBetween_scripted_iff.1 hdraw
    refine ⟨_, _, _, ⟨?_, hdraws v, .cons hdraw .nil, nofun⟩⟩
    rw [hserve, hdraw]
    rfl
  | error f s =>
    obtain rfl := Source.drawBetween_of_error hdraw
    refine ⟨_, _, p, ⟨?_, hrefused f, .nil, fun g hg _ => ?_⟩⟩
    · rw [hserve, hdraw]
      rfl
    · cases hg
      exact ⟨low, high, hasks, hdraw⟩

theorem serve_of_no_text {o : Options} {d : Datum} (h : ∀ expression, d ≠ .text expression)
    (p : Script) :
    (evaluate o d).serve (.scripted p) = (.error .invalidExpression, .scripted p) := by
  cases d with
  | text expression => exact absurd rfl (h expression)
  | _ => rfl

theorem exists_turn (r : Request) (p : Script) : ∃ answer ds q, r.Turn p answer ds q := by
  cases r with
  | between low high =>
    exact exists_turn_of_draw (fun _ => rfl) (fun _ => .between) (fun _ => .between_refused)
      .between p
  | roll sides =>
    exact exists_turn_of_draw (fun _ => rfl) (fun _ => .roll) (fun _ => .roll_refused) .roll p
  | evaluate o d =>
    by_cases htext : ∃ expression, d = .text expression
    · obtain ⟨expression, rfl⟩ := htext
      obtain ⟨answer, ds, q, hserved, hhands, hdraws, hstuck⟩ :=
        exists_evaluationDraws o expression p []
      refine ⟨_, ds, q, ⟨hserved, .evaluate hdraws, hhands, fun f hf hsource => ?_⟩⟩
      cases answer with
      | ok r => cases hf
      | error g =>
        cases hf
        obtain ⟨t, hterm, hq⟩ := hstuck f rfl hsource
        exact ⟨_, _, .evaluate hterm, Source.drawBetween_of_stuck hq⟩
    · have hno : ∀ expression, d ≠ .text expression := fun e he => htext ⟨e, he⟩
      refine ⟨_, [], p, ⟨serve_of_no_text hno p, .no_text hno, .nil, fun f hf hsource => ?_⟩⟩
      cases hf
      rcases hsource with hkind | hkind <;> cases hkind

/-! ### All requests -/

/-- The requests are made of the script one after the other, with these answers and
these draws, and leave the second script. -/
inductive Turns : List Request → Script → List (Except Fault Answer) → List (List Draw) →
    Script → Prop
  | nil {p : Script} : Turns [] p [] [] p
  | cons {r : Request} {rs : List Request} {p p₁ q : Script} {answer : Except Fault Answer}
      {answers : List (Except Fault Answer)} {ds : List Draw} {later : List (List Draw)} :
      r.Turn p answer ds p₁ → Turns rs p₁ answers later q →
      Turns (r :: rs) p (answer :: answers) (ds :: later) q

theorem exists_turns (rs : List Request) (p : Script) : ∃ draws q,
    Turns rs p (serveAll rs (.scripted p)).1 draws q ∧
      (serveAll rs (.scripted p)).2 = .scripted q := by
  induction rs generalizing p with
  | nil => exact ⟨[], p, .nil, rfl⟩
  | cons r rs ih =>
    obtain ⟨answer, ds, p₁, hturn⟩ := exists_turn r p
    obtain ⟨later, q, hturns, hleft⟩ := ih p₁
    rw [serveAll, hturn.served]
    exact ⟨ds :: later, q, .cons hturn hturns, hleft⟩

namespace Turns

variable {rs : List Request} {answers : List (Except Fault Answer)} {draws : List (List Draw)}

theorem handsOut (h : Turns rs p answers draws q) : p.HandsOut draws.flatten q := by
  induction h with
  | nil => exact .nil
  | cons hturn _ ih => exact hturn.handsOut.append ih

theorem fits (h : Turns rs p answers draws q) :
    List.Forall₂ (fun r ds => ∀ d ∈ ds, r.AsksFor d.low d.high ∧ d.Fits) rs draws := by
  induction h with
  | nil => exact .nil
  | cons hturn _ ih =>
    refine .cons (fun d hd => ?_) ih
    exact ⟨hturn.draws.asksFor d hd, hturn.handsOut.fits d hd⟩

end Turns

/-- **Requests to one script.** Whatever is asked of a script, the values handed out
are the first ones of the script in order, each within the bounds that its request
asked for. No request changes the values, and one that fails leaves the script
where the last value was handed out. -/
theorem serveAll_turns (requests : List Request) (values : List Int) :
    let served := serveAll requests (.scripted (.ofList values))
    ∃ (draws : List (List Draw)) (q : Script), served.2 = .scripted q ∧
      Turns requests (.ofList values) served.1 draws q ∧
      q.values = values ∧ q.index ≤ values.length ∧
      draws.flatten.map Draw.value = values.take q.index ∧
      List.Forall₂ (fun r ds => ∀ d ∈ ds, r.AsksFor d.low d.high ∧ d.Fits) requests draws := by
  intro served
  obtain ⟨draws, q, hturns, hleft⟩ := exists_turns requests (.ofList values)
  have hhands := hturns.handsOut
  have hpassed : q.passed.reverse = draws.flatten.map Draw.value := hhands.passed_eq
  have hvalues : q.values = values := by
    rw [Script.values, hpassed, ← hhands.pending_eq]
    rfl
  have hfront : values = q.passed.reverse ++ q.pending := hvalues.symm
  have hindex : q.index = q.passed.reverse.length := List.length_reverse.symm
  refine ⟨draws, q, hleft, hturns, hvalues, ?_, ?_, hturns.fits⟩
  · rw [hindex, hfront, List.length_append]
    exact Nat.le_add_right _ _
  · rw [hindex, hfront, List.take_left, hpassed]

/-- The value that is refused is still there for the next request. -/
example : (serveAll [.roll (.number 6), .between (.number 1) (.number 2), .roll (.number 6)]
    (.scripted (.ofList [4, 5]))).2 = .scripted ⟨[5, 4], []⟩ := rfl

end Request

end DiceRoller
