/-
# The faults of an evaluation with a live engine

A live engine has an answer for every die that fits it, so an evaluation with
one ends: with an outcome, or with a fault. The fault belongs to the tree of the
library, or one of three things is wrong. A run of digits in the expression is
too long to be read; a term of the expression has dice with too many sides; or a
number that a term comes to is too long to be written
(`evaluate_of_live`). A term comes to no more than `Term.reach`, and the total to
no more than the sum of that over all terms.

Key definitions: `Term.reach`, `Part.Within`.
Key theorems: `rollTerms_of_live`, `evaluate_of_live`.
-/
import DiceRoller.Proofs.Expression.Faults
import DiceRoller.Proofs.Expression.Occurs
import DiceRoller.Proofs.Expression.Range
import DiceRoller.Proofs.Hand.Seeded

namespace DiceRoller

variable {o : Options} {terms : List Term} {parts : List Part} {expression : String}
  {T T' : Trace} {f : Fault}

/-! ### How much terms come to -/

/-- The most that the term can add to a total or take away from it. -/
def Term.reach (o : Options) : Term → Nat
  | constant c => c.value.natAbs
  | dice t => o.reach t

/-- What the part was rolled to is no more than its term can come to. -/
def Part.Within (o : Options) : Part → Prop
  | constant _ => True
  | dice t h => (∀ r ∈ h.rolls, 1 ≤ r ∧ r ≤ (t.sides : Int)) ∧ 0 ≤ h.value ∧ h.value ≤ o.reach t

theorem Part.Within.natAbs_le {part : Part} (hp : part.Within o) (hsign : part.term.Signed) :
    part.signedValue.natAbs ≤ part.term.reach o := by
  obtain ⟨s, hs⟩ := hsign
  have hone : ∀ x : Int, (part.term.sign * x).natAbs = x.natAbs := by
    intro x
    rw [hs, Int.natAbs_mul]
    cases s <;> simp [Sign.factor]
  cases part with
  | constant c => exact (hone c.value).le
  | dice t h =>
    refine (hone h.value).le.trans ?_
    obtain ⟨-, hzero, hle⟩ := hp
    show h.value.natAbs ≤ o.reach t
    omega

theorem natAbs_total_le (hp : ∀ part ∈ parts, part.Within o)
    (hsign : ∀ part ∈ parts, part.term.Signed) :
    ((parts.map Part.signedValue).foldr (· + ·) 0).natAbs ≤
      ((parts.map Part.term).map (Term.reach o)).sum := by
  induction parts with
  | nil => exact Nat.zero_le _
  | cons part parts ih =>
    have hfirst := (hp part List.mem_cons_self).natAbs_le (hsign part List.mem_cons_self)
    have hrest := ih (fun p h => hp p (List.mem_cons_of_mem _ h))
      fun p h => hsign p (List.mem_cons_of_mem _ h)
    rw [List.map_cons, List.foldr_cons, List.map_cons, List.map_cons, List.sum_cons]
    exact (Int.natAbs_add_le _ _).trans (Nat.add_le_add hfirst hrest)

/-- A part is displayed if its term can be, and cannot come to a number that is too
long. -/
theorem Part.Within.writable {part : Part} (hp : part.Within o)
    (hterm : part.term.textNumbers.all Numeral.writable = true)
    (hreach : ∀ t, part.term = .dice t → Numeral.writable (o.reach t) = true) :
    part.textNumbers.all Numeral.writable = true := by
  cases part with
  | constant c => exact hterm
  | dice t h =>
    obtain ⟨hrolls, hzero, hle⟩ := hp
    exact Part.writable_dice hterm hrolls (writable_of_le hzero hle (hreach t rfl))

/-! ### Evaluations -/

theorem rollTerms_of_live (hu : ∀ e, o.explode = some e → e.unbounded = false)
    (hs : T.source.Live) (hok : rollTerms o terms T = .ok parts T') :
    T'.source.Live ∧ ∀ part ∈ parts, part.Within o := by
  induction terms generalizing T parts with
  | nil =>
    cases hok
    exact ⟨hs, nofun⟩
  | cons term terms ih =>
    obtain ⟨part, T₁, rest, hpart, hrest, rfl⟩ := cons_eq_ok_iff.1 hok
    have hfirst : T₁.source.Live ∧ part.Within o := by
      cases term with
      | constant c =>
        obtain ⟨rfl, rfl⟩ := rollPart_constant.1 hpart
        exact ⟨hs, trivial⟩
      | dice t =>
        obtain ⟨h, s', hroll, rfl, rfl⟩ := rollPart_dice.1 hpart
        obtain ⟨vs, hsteps, hg⟩ := Options.rollTerm_of_ok hroll
        have hwithin : h.Within o t := by
          rcases Options.rollTerm_of_live hs hu with ⟨h', s'', hroll', -, hwithin⟩ | ⟨f, s'', herr, -⟩
          · cases hroll.symm.trans hroll'
            exact hwithin
          · cases hroll.symm.trans herr
        refine ⟨hs.of_gives hg, fun r hr => ?_, Options.value_le_reach hroll hwithin⟩
        exact hg.mem_range r (Options.mem_of_mem_rolls hsteps hr)
    obtain ⟨hs', hparts⟩ := ih hfirst.1 hrest
    exact ⟨hs', List.forall_mem_cons.2 ⟨hfirst.2, hparts⟩⟩

/-- What can be wrong with dice of the expression that are read: there are too many sides,
or there is a number that is too long. -/
def Fault.OfDice (f : Fault) (o : Options) (expression : String) : Prop :=
  ∃ t : DiceTerm, (Term.dice t).Occurs expression ∧
    (f = .badRange .highTooLarge ∧ Engine.highest < (t.sides : Int) ∨
      f = .numeralTooLongToWrite ∧ o.TooLong t)

/-- The terms fail with a fault of the tree, unless a run of digits is too long or
dice cannot be rolled. -/
theorem fault_of_evalTerms_of_live (hu : ∀ e, o.explode = some e → e.unbounded = false)
    (hs : T.source.Live) (herr : evalTerms o expression T = .error f T') :
    f.kind.isDice = true ∨ f.LongRun (Blank.remove expression.toList) ∨
      f.OfDice o expression := by
  by_cases ho : Token.InOrder (Token.scan expression.toList)
  · obtain ⟨before, lead, body, parts, T₁, hfails⟩ := exists_failsAt ho herr
    have hbody : Token.body body ∈ Token.scan expression.toList := by
      obtain ⟨after, hscan⟩ := hfails.tokens_eq
      rw [hscan]
      exact List.mem_append_right _ List.mem_cons_self
    have hs₁ : T₁.source.Live := by
      rcases hfails.evaluated with ⟨-, -, rfl⟩ | ⟨-, -, hok⟩
      · exact hs
      · obtain ⟨terms, -, hroll⟩ := evalTerms_eq_ok_iff.1 hok
        exact (rollTerms_of_live hu hs hroll).1
    rcases hfails.failed with ⟨hread, -⟩ | ⟨t, hread, hroll⟩
    · exact (Term.read_of_error (Token.remove_body hbody) hread).imp_right fun hlong =>
        .inl (hlong.mono (Token.infix_of_mem_scan hbody))
    · refine .inr (.inr ⟨t, ⟨_, body, hbody, hread⟩, ?_⟩)
      rcases Options.rollTerm_of_live hs₁ hu with ⟨h, s', hok, -⟩ | ⟨g, s', hg, hwhy⟩
      · cases hroll.symm.trans hok
      · cases hroll.symm.trans hg
        exact hwhy
  · exact .inl (isDice_of_not_inOrder ho herr)

/-- **The end of an evaluation.** With a live engine, and unless an explosion is
unbounded, an evaluation has an outcome, whose total is within what the terms can
come to, or it has a fault. The fault belongs to the tree of the library, or a run of
digits is too long to be read, or dice of the expression have too many sides, or a number
that they come to is too long to be written. -/
theorem evaluate_of_live (hu : ∀ e, o.explode = some e → e.unbounded = false)
    (hs : T.source.Live) :
    (∃ out T' terms, evaluate o expression T = .ok out T' ∧ readTerms expression = .ok terms ∧
        out.total.natAbs ≤ (terms.map (Term.reach o)).sum) ∨
      ∃ f T', evaluate o expression T = .error f T' ∧
        (f.kind.isDice = true ∨ f.LongRun (Blank.remove expression.toList) ∨
          f.OfDice o expression) := by
  cases heval : evaluate o expression T with
  | ok out T' =>
    obtain ⟨terms, parts, hread, hroll, hsum⟩ := evaluate_eq_ok_iff.1 heval
    obtain ⟨-, rfl⟩ := summarize_eq_ok_iff.1 hsum
    obtain ⟨d, -, rfl⟩ := readTerms_eq_ok_iff.1 hread
    have hterms := term_of_rollTerms hroll
    refine .inl ⟨_, T', d.terms, rfl, hread, ?_⟩
    rw [← hterms]
    refine natAbs_total_le (rollTerms_of_live hu hs hroll).2 fun part hpart => ?_
    refine Sentence.signed_of_mem (d := d) ?_
    rw [← hterms]
    exact List.mem_map_of_mem hpart
  | error f T' =>
    refine .inr ⟨f, T', rfl, ?_⟩
    rcases evaluate_eq_error_iff.1 heval with herr | ⟨parts, hok, herr⟩
    · exact fault_of_evalTerms_of_live hu hs herr
    · obtain ⟨rfl, part, hpart, hw⟩ := summarize_of_error herr
      obtain ⟨terms, hread, hroll⟩ := evalTerms_eq_ok_iff.1 hok
      obtain ⟨d, -, rfl⟩ := readTerms_eq_ok_iff.1 hread
      have hmem : part.term ∈ d.terms := by
        rw [← term_of_rollTerms hroll]
        exact List.mem_map_of_mem hpart
      have hwithin := (rollTerms_of_live hu hs hroll).2 part hpart
      by_contra hnone
      refine Bool.false_ne_true (hw.symm.trans (hwithin.writable
        (Sentence.writable_textNumbers hmem) fun t ht => ?_))
      by_contra hreach
      rw [ht] at hmem
      exact hnone (.inr (.inr ⟨t, .of_mem hread hmem, .inr ⟨rfl, .inr (Bool.eq_false_iff.2 hreach)⟩⟩))

end DiceRoller
