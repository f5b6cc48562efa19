/-
# The faults of an evaluation

An evaluation on a script ends with an outcome, or with a fault. Nearly all of
its faults belong to the tree of the library: what is wrong with the order of
the tokens, what is wrong with a term, and what is wrong with the source. The
others are about numbers that are too long, and there are only two of them. One
says that a run of digits in the expression is too long to be read. The other
one says that a number is too long to be written, be it in a tag, in a message,
or in the text of a part (`evaluate_fault_kind`).

Both do occur: a constant with one digit too many is not read, and the fault
that says so is outside the tree (`not_evaluate_fault_isDice_of_long_constant`).

Key theorems: `Part.writable_dice`, `Deals.writable`, `fault_of_evalTerms`,
`fault_of_summarize`, `evaluate_fault_kind`.
-/
import DiceRoller.Proofs.Expression.FirstFault
import DiceRoller.Proofs.Hand.Worth

namespace DiceRoller

variable {o : Options} {s s' : Source} {parts : List Part} {drawn : List (List Int)}
  {expression : String} {p : Script} {log : List LogEntry} {T T' : Trace} {f : Fault}

/-! ### Faults of the terms -/

theorem Token.isDice_of_problem? {ts : List Token} (h : problem? ts = some f) :
    f.kind.isDice = true := by
  rcases problem?_cases h with rfl | rfl | ⟨n, rfl⟩ <;> rfl

theorem Fault.OfSource.isDice (h : f.OfSource) : f.kind.isDice = true := by
  rcases h with h | h <;> rw [h] <;> rfl

theorem isDice_of_not_inOrder (ho : ¬ Token.InOrder (Token.scan expression.toList))
    (herr : evalTerms o expression T = .error f T') : f.kind.isDice = true := by
  rcases (evalTerms_of_not_inOrder ho herr).2 with rfl | hproblem
  · rfl
  · exact Token.isDice_of_problem? hproblem

theorem Token.infix_of_mem_scan {cs body : List Char} (h : Token.body body ∈ scan cs) :
    body <:+: Blank.remove cs := by
  rw [← flatten_scan cs, List.flatMap]
  exact List.infix_of_mem_flatten (List.mem_map_of_mem h)

theorem fault_of_evalTerms (herr : evalTerms o expression ⟨.scripted p, log⟩ = .error f T') :
    f.kind.isDice = true ∨ f.LongRun (Blank.remove expression.toList) ∨
      f = .numeralTooLongToWrite ∧ (o.tagNumbers.all Numeral.writable = false ∨ ¬ p.Short) := by
  by_cases ho : Token.InOrder (Token.scan expression.toList)
  · obtain ⟨before, lead, body, parts, T₁, hfails⟩ := exists_failsAt ho herr
    have hbody : Token.body body ∈ Token.scan expression.toList := by
      obtain ⟨after, hscan⟩ := hfails.tokens_eq
      rw [hscan]
      exact List.mem_append_right _ List.mem_cons_self
    rcases hfails.fault with hread | hsource | hwrite
    · rcases Term.read_of_error (Token.remove_body hbody) hread with hdice | hlong
      · exact .inl hdice
      · exact .inr (.inl (hlong.mono (Token.infix_of_mem_scan hbody)))
    · exact .inl hsource.isDice
    · exact .inr (.inr hwrite)
  · exact .inl (isDice_of_not_inOrder ho herr)

/-! ### Faults of the texts -/

/-- Dice are displayed if their term and their value are, as no roll is above the
number of sides. -/
theorem Part.writable_dice {t : DiceTerm} {h : Hand}
    (hterm : t.textNumbers.all Numeral.writable = true)
    (hrolls : ∀ r ∈ h.rolls, 1 ≤ r ∧ r ≤ (t.sides : Int))
    (hvalue : Numeral.writable h.value = true) :
    (Part.dice t h).textNumbers.all Numeral.writable = true := by
  have hsides : Numeral.writable t.sides = true :=
    List.all_eq_true.1 hterm t.sides (List.mem_cons_of_mem _ List.mem_cons_self)
  have hall : h.rolls.all Numeral.writable = true := by
    refine List.all_eq_true.2 fun r hr => ?_
    obtain ⟨hone, hle⟩ := hrolls r hr
    exact writable_of_le (by omega) hle hsides
  show (t.textNumbers ++ (h.rolls ++ [h.value])).all Numeral.writable = true
  rw [List.all_append, Bool.and_eq_true]
  exact ⟨hterm, all_writable_append hall hvalue⟩

/-- If the sums of the script may be written, then so may the texts of the parts
that it was dealt to. -/
theorem Deals.writable (hd : Deals o s parts drawn s') (hs : s = .scripted p) (hp : p.Short)
    (hterms : ∀ part ∈ parts, part.term.textNumbers.all Numeral.writable = true) :
    ∀ part ∈ parts, part.textNumbers.all Numeral.writable = true := by
  induction hd generalizing p with
  | nil => exact nofun
  | @constant c _ _ parts _ _ ih =>
    have hnumbers : (Part.constant c).textNumbers = (Part.constant c).term.textNumbers := rfl
    have hfirst : (Part.constant c).textNumbers.all Numeral.writable = true := by
      rw [hnumbers]
      exact hterms _ List.mem_cons_self
    have hrest := ih hs hp fun part h => hterms part (List.mem_cons_of_mem _ h)
    exact List.forall_mem_cons.2 ⟨hfirst, hrest⟩
  | @dice t h _ _ _ vs parts _ hsteps hg _ ih =>
    subst hs
    obtain ⟨q, rfl, hpending⟩ := hg.exists_script
    have hrest := ih rfl (hp.of_gives hg) fun part h => hterms part (List.mem_cons_of_mem _ h)
    have hrolls : ∀ r ∈ h.rolls, 1 ≤ r ∧ r ≤ (t.sides : Int) := fun r hr =>
      hg.mem_range r (Options.mem_of_mem_rolls hsteps hr)
    have hvalue : Numeral.writable h.value = true := by
      obtain ⟨hzero, hle⟩ := Options.value_le_sum hsteps fun v hv => by
        have hone := (hg.mem_range v hv).1
        omega
      exact writable_of_le hzero hle (hp vs ⟨[], q.pending, hpending.symm⟩)
    have hterm := hterms _ List.mem_cons_self
    have hfirst : (Part.dice t h).textNumbers.all Numeral.writable = true :=
      Part.writable_dice hterm hrolls hvalue
    exact List.forall_mem_cons.2 ⟨hfirst, hrest⟩

theorem fault_of_summarize (hok : evalTerms o expression ⟨.scripted p, log⟩ = .ok parts T')
    (herr : summarize parts = .error f) : f = .numeralTooLongToWrite ∧ ¬ p.Short := by
  obtain ⟨hf, part, hmem, hw⟩ := summarize_of_error herr
  refine ⟨hf, fun hp => ?_⟩
  obtain ⟨terms, hread, hroll⟩ := evalTerms_eq_ok_iff.1 hok
  obtain ⟨d, -, rfl⟩ := readTerms_eq_ok_iff.1 hread
  obtain ⟨drawn, hd⟩ := rollTerms_deals hroll
  have hterms : ∀ part ∈ parts, part.term.textNumbers.all Numeral.writable = true := by
    intro part hpart
    refine Sentence.writable_textNumbers (d := d) ?_
    rw [← term_of_rollTerms hroll]
    exact List.mem_map_of_mem hpart
  exact Bool.false_ne_true (hw.symm.trans (hd.writable rfl hp hterms part hmem))

/-! ### Every fault -/

/-- **The faults of an evaluation.** On a script an evaluation has an outcome, or
it fails with a fault of the tree of the library. Any other fault is about a run
of digits in the expression that is too long to be read, or about a number that is
too long to be written, and then one of the tags of the options is, or a sum of
values that the script has side by side. -/
theorem evaluate_fault_kind (o : Options) (expression : String) (p : Script)
    (log : List LogEntry) :
    (∃ out T', evaluate o expression ⟨.scripted p, log⟩ = .ok out T') ∨
      ∃ f T', evaluate o expression ⟨.scripted p, log⟩ = .error f T' ∧
        (f.kind.isDice = true ∨ f.LongRun (Blank.remove expression.toList) ∨
          f = .numeralTooLongToWrite ∧
            (o.tagNumbers.all Numeral.writable = false ∨ ¬ p.Short)) := by
  cases heval : evaluate o expression ⟨.scripted p, log⟩ with
  | ok out T' => exact .inl ⟨out, T', rfl⟩
  | error f T' =>
    refine .inr ⟨f, T', rfl, ?_⟩
    rcases evaluate_eq_error_iff.1 heval with herr | ⟨parts, hok, herr⟩
    · exact fault_of_evalTerms herr
    · obtain ⟨hf, hlong⟩ := fault_of_summarize hok herr
      exact .inr (.inr ⟨hf, .inr hlong⟩)

/-! ### A constant that is too long -/

theorem evaluate_of_long_run {run : List Char} (hrun : IsRun run)
    (hlong : Numeral.digitLimit < run.length) (T : Trace) :
    evaluate o (String.ofList run) T = .error (.numeralTooLongToRead run.length) T := by
  have hbody : ∀ c ∈ run, Token.IsBodyChar c := fun c hc =>
    Token.isBodyChar_of_isDigit (hrun.isDigit c hc)
  have hscan : Token.scan (String.ofList run).toList = [.body run] := by
    have happend : Token.scan (run ++ []) = .body run :: Token.scan [] :=
      Token.scan_append hbody hrun.ne_nil nofun
    rw [List.append_nil] at happend
    rw [String.toList_ofList, happend]
    rfl
  have ho : Token.InOrder (Token.scan (String.ofList run).toList) := by
    rw [hscan]
    exact .unsigned .nil
  have hblank : Blank.remove run = run :=
    @Token.remove_body (String.ofList run).toList run (by rw [hscan]; exact List.mem_cons_self)
  have hread : Term.read (Sign.plus.char :: run) = .error (.numeralTooLongToRead run.length) :=
    Term.read_of_long_run hblank hrun hlong
  refine evaluate_eq_error_iff.2 (.inl ?_)
  rw [evalTerms_of_inOrder ho, hscan]
  exact cons_eq_error_iff.2 (.inl (evalTerm_eq_error_iff.2 ⟨rfl, .inl ⟨hread, rfl⟩⟩))

/-- The constant has one digit more than can be read. There is no outcome, and
no fault of the tree either. -/
theorem not_evaluate_fault_isDice_of_long_constant :
    let expression := String.ofList (List.replicate (Numeral.digitLimit + 1) '1')
    ¬ ((∃ out T', evaluate {} expression ⟨.scripted (.ofList []), []⟩ = .ok out T') ∨
      ∃ f T', evaluate {} expression ⟨.scripted (.ofList []), []⟩ = .error f T' ∧
        f.kind.isDice = true) := by
  intro expression
  have hrun : IsRun (List.replicate (Numeral.digitLimit + 1) '1') := by
    refine ⟨List.cons_ne_nil _ _, fun c hc => ?_⟩
    rw [(List.mem_replicate.1 hc).2]
    rfl
  have hlong : Numeral.digitLimit <
      (List.replicate (Numeral.digitLimit + 1) '1').length := by
    rw [List.length_replicate]
    exact Nat.lt_succ_self _
  have herr := evaluate_of_long_run (o := {}) hrun hlong ⟨.scripted (.ofList []), []⟩
  rintro (⟨out, T', hok⟩ | ⟨f, T', hf, hdice⟩)
  · cases hok.symm.trans herr
  · cases hf.symm.trans herr
    cases hdice

end DiceRoller
