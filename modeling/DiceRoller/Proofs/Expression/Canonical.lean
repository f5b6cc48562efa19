/-
# The canonical form of an expression

A term that is printed is read back as itself (`Term.read_of_print`): its numbers
are runs of digits that are not too long, so what is printed is one of the forms
in which a term may be written. The letters are small, there are no leading
zeros, and no shorthand is used.

The canonical form of an expression is the texts of its terms, one after the
other. Each of them has a sign in front, so no separator is needed, and the
terms that are read in the canonical form are those of the expression
(`readTerms_of_canonical`). Nothing that an evaluation leaves behind tells the
two apart, and the canonical form of the canonical form is the same again
(`canonical_evaluates`).

Key definitions: `Term.Expressible`, `Term.print`, `canonical`.
Key theorems: `Term.exists_form`, `Term.read_of_print`,
`Sentence.readTerms_join`, `readTerms_of_canonical`, `canonical_evaluates`.
-/
import DiceRoller.Proofs.Expression.Acceptance
import DiceRoller.Proofs.Hand.Unambiguous

namespace DiceRoller

/-! ### Printing a term -/

/-- The run of digits with which a number is written. -/
def DigitRun.ofNat (n : Nat) (hn : Numeral.writable n = true) : DigitRun where
  chars := (toString n).toList
  isRun := DiceTerm.isRun_toString n
  length_le := Numeral.length_toString_le (by decide) (by
    rw [Numeral.writable, decide_eq_true_eq, Int.natAbs_natCast] at hn
    exact hn)

@[simp] theorem DigitRun.value_ofNat (n : Nat) (hn : Numeral.writable n = true) :
    (DigitRun.ofNat n hn).value = n := by
  show Nat.ofDigitChars 10 (toString n).toList 0 = n
  rw [toList_toString_nat, Nat.ofDigitChars_ten_toDigits]

namespace Term

/-- The factor is that of a sign, and a constant is not negative by itself. -/
structure Expressible (t : Term) : Prop where
  sign : t.sign = 1 ∨ t.sign = -1
  nonneg : ∀ c, t = .constant c → 0 ≤ c.value

/-- The text of the term, if its numbers may be written. -/
def print (t : Term) : Except Fault String := Numeral.publish t.textNumbers t.text

theorem print_eq_ok_iff {t : Term} {x : String} :
    t.print = .ok x ↔ t.textNumbers.all Numeral.writable = true ∧ t.text = x :=
  Numeral.publish_eq_ok_iff

/-- Whatever is written in an expression is a term of this kind. -/
theorem expressible_form (f : Form) (s : Sign) : (f.term s).Expressible where
  sign := by
    rw [f.sign_term]
    cases s
    · exact .inl rfl
    · exact .inr rfl
  nonneg c hc := by
    cases f with
    | constant value =>
      obtain rfl := Term.constant.inj hc
      exact Int.natCast_nonneg _
    | _ => cases hc

theorem exists_factor {t : Term} (ht : t.Expressible) : ∃ s : Sign, t.sign = s.factor := by
  rcases ht.sign with h | h
  · exact ⟨.plus, h⟩
  · exact ⟨.minus, h⟩

/-- The text of a term is one of its forms, with the sign in front of it. -/
theorem exists_form {t : Term} (ht : t.Expressible)
    (hw : t.textNumbers.all Numeral.writable = true) :
    ∃ (s : Sign) (f : Form), t.text.toList = s.char :: f.chars ∧ f.term s = t := by
  obtain ⟨s, hs⟩ := exists_factor ht
  refine ⟨s, ?_⟩
  cases t with
  | constant c =>
    obtain ⟨sign, value⟩ := c
    obtain rfl : sign = s.factor := hs
    obtain ⟨n, rfl⟩ := Int.eq_ofNat_of_zero_le (ht.nonneg _ rfl)
    have hn : Numeral.writable n = true := by simpa [textNumbers, ConstantTerm.textNumbers] using hw
    refine ⟨.constant (.ofNat n hn), ?_, ?_⟩
    · rw [text, ConstantTerm.toList_text, signChar_factor]
      rfl
    · rw [Form.term, DigitRun.value_ofNat]
  | dice t =>
    obtain ⟨sign, number, sides, drop, one_le, two_le, lt⟩ := t
    obtain rfl : sign = s.factor := hs
    have hw' : Numeral.writable number = true ∧ Numeral.writable sides = true ∧
        Numeral.writable drop = true := by
      simpa [textNumbers, DiceTerm.textNumbers] using hw
    obtain ⟨hn, hm, hk⟩ := hw'
    by_cases h0 : drop = 0
    · subst h0
      refine ⟨.dice (.ofNat number hn) ⟨'d', .inl rfl⟩ (.ofNat sides hm) (by simpa) (by simpa),
        ?_, ?_⟩
      · rw [text, DiceTerm.toList_text, signChar_factor]
        rfl
      · simp only [Form.term, DigitRun.value_ofNat]
    · refine ⟨.dropDice (.ofNat number hn) ⟨'d', .inl rfl⟩ (.ofNat sides hm) ⟨'d', .inl rfl⟩
        ⟨'l', .inl rfl⟩ (.ofNat drop hk) (by simpa) (by simpa) (by simpa), ?_, ?_⟩
      · rw [text, DiceTerm.toList_text, signChar_factor, DiceTerm.spelling, if_neg h0]
        rfl
      · simp only [Form.term, DigitRun.value_ofNat]

theorem read_of_print {t : Term} (ht : t.Expressible) {x : String} (hx : t.print = .ok x) :
    read x.toList = .ok t := by
  obtain ⟨hw, rfl⟩ := print_eq_ok_iff.1 hx
  obtain ⟨s, f, htext, rfl⟩ := exists_form ht hw
  rw [htext]
  exact Sentence.read_form s f

end Term

/-! ### Printing an expression -/

/-- The canonical form of an expression: the texts of its terms, one after the
other. -/
def canonical (expression : String) : Except Fault String := do
  let terms ← readTerms expression
  let texts ← terms.mapM Term.print
  return String.join texts

theorem mapM_print_of_writable {terms : List Term}
    (hw : ∀ t ∈ terms, t.textNumbers.all Numeral.writable = true) :
    terms.mapM Term.print = .ok (terms.map Term.text) := by
  induction terms with
  | nil => rfl
  | cons t ts ih =>
    have hfirst : t.print = .ok t.text := Term.print_eq_ok_iff.2 ⟨hw t List.mem_cons_self, rfl⟩
    have hrest := ih fun u hu => hw u (List.mem_cons_of_mem _ hu)
    rw [List.mapM_cons, exceptBind_of_ok hfirst, exceptBind_of_ok hrest]
    rfl

variable {expression c : String} {terms : List Term}

theorem canonical_of_readTerms (h : readTerms expression = .ok terms) :
    canonical expression = .ok (String.join (terms.map Term.text)) := by
  obtain ⟨d, -, rfl⟩ := readTerms_eq_ok_iff.1 h
  rw [canonical, exceptBind_of_ok h,
    exceptBind_of_ok (mapM_print_of_writable fun t ht => Sentence.writable_textNumbers ht)]
  rfl

namespace Sentence

/-- The texts of some terms, one after the other, are signed forms one after the
other. -/
theorem exists_rest_of_terms (hterms : ∀ t ∈ terms, t.Expressible ∧
      t.textNumbers.all Numeral.writable = true) :
    ∃ rest : List (Sign × Form), restChars rest = (String.join (terms.map Term.text)).toList ∧
      rest.map (fun p => p.2.term p.1) = terms := by
  induction terms with
  | nil => exact ⟨[], rfl, rfl⟩
  | cons t ts ih =>
    obtain ⟨ht, hw⟩ := hterms t List.mem_cons_self
    obtain ⟨s, f, htext, rfl⟩ := Term.exists_form ht hw
    obtain ⟨rest, hchars, rfl⟩ := ih fun u hu => hterms u (List.mem_cons_of_mem _ hu)
    refine ⟨(s, f) :: rest, ?_, rfl⟩
    rw [List.map_cons, String.join_cons, String.toList_append, htext, ← hchars]
    rfl

theorem remove_chars (d : Sentence) : Blank.remove d.chars = d.chars := by
  rw [← Token.flatten_scan, d.scan_chars, d.tokens_flatMap_chars]

theorem readTerms_join (hne : terms ≠ []) (hterms : ∀ t ∈ terms, t.Expressible ∧
      t.textNumbers.all Numeral.writable = true) :
    readTerms (String.join (terms.map Term.text)) = .ok terms := by
  obtain ⟨rest, hchars, rfl⟩ := exists_rest_of_terms hterms
  obtain ⟨⟨s, f⟩, rest, rfl⟩ := List.exists_cons_of_ne_nil (by simpa using hne)
  refine readTerms_eq_ok_iff.2 ⟨⟨some s, f, rest⟩, ?_, rfl⟩
  rw [← hchars]
  exact (remove_chars ⟨some s, f, rest⟩).symm

end Sentence

theorem readTerms_of_canonical (h : canonical expression = .ok c) :
    readTerms c = readTerms expression := by
  obtain ⟨terms, hread, -⟩ := exceptBind_eq_ok_iff.1 h
  obtain rfl := Except.ok.inj ((canonical_of_readTerms hread).symm.trans h)
  obtain ⟨d, -, rfl⟩ := readTerms_eq_ok_iff.1 hread
  rw [hread]
  refine Sentence.readTerms_join (List.cons_ne_nil _ _) fun t ht => ?_
  obtain ⟨f, s, rfl⟩ := Sentence.exists_form_of_mem ht
  exact ⟨Term.expressible_form f s, f.writable_textNumbers s⟩

/-- **Printing and reading are inverse.** A term that is printed is read as
itself. So an expression that is evaluated has a canonical form, the texts of the
terms of its parts, and this gives the same result and leaves the same behind;
it is its own canonical form. -/
theorem canonical_evaluates (o : Options) :
    (∀ {t : Term} {x : String}, t.Expressible → t.print = .ok x → Term.read x.toList = .ok t) ∧
      ∀ {expression : String} {T T' : Trace} {out : Outcome},
        evaluate o expression T = .ok out T' →
        ∃ (parts : List Part) (c : String), evalTerms o expression T = .ok parts T' ∧
          c = String.join (parts.map fun p => p.term.text) ∧ canonical expression = .ok c ∧
          evaluate o c T = .ok out T' ∧ canonical c = .ok c := by
  refine ⟨fun ht hx => Term.read_of_print ht hx, fun {expression T T' out} hok => ?_⟩
  obtain ⟨terms, parts, hread, hroll, hsum⟩ := evaluate_eq_ok_iff.1 hok
  have hterms : parts.map Part.term = terms := term_of_rollTerms hroll
  have hcanonical := canonical_of_readTerms hread
  have hread' := (readTerms_of_canonical hcanonical).trans hread
  refine ⟨parts, _, evalTerms_eq_ok_iff.2 ⟨terms, hread, hroll⟩, ?_, hcanonical,
    evaluate_eq_ok_iff.2 ⟨terms, parts, hread', hroll, hsum⟩, canonical_of_readTerms hread'⟩
  rw [← hterms, List.map_map]
  rfl

/-- A capital letter, a die without a count, blanks and leading zeros are gone in
the canonical form. -/
theorem canonical_evaluates_die :
    let t : DiceTerm := ⟨-1, 3, 6, 1, by decide, by decide, by decide⟩
    let T : Trace := ⟨.scripted (.ofList [5]), []⟩
    Term.read "-3d6dl1".toList = .ok (.dice t) ∧ ∃ out T',
      evaluate {} " D6 - 007" T = .ok out T' ∧ canonical " D6 - 007" = .ok "+1d6-7" ∧
      evaluate {} "+1d6-7" T = .ok out T' ∧ canonical "+1d6-7" = .ok "+1d6-7" := by
  intro t T
  have ht : (Term.dice t).Expressible := ⟨.inr rfl, nofun⟩
  have hx : (Term.dice t).print = .ok "-3d6dl1" := by decide +kernel
  let d6 : DiceTerm := ⟨1, 1, 6, 0, by decide, by decide, by decide⟩
  let h : Hand := { rolls := [5] }
  have hread : readTerms " D6 - 007" = .ok [.dice d6, .constant ⟨-1, 7⟩] := by decide +kernel
  have hsteps : Modifier.Steps d6 (Options.modifiersFor {} d6) {} [5] h :=
    Options.steps_plain rfl rfl
  have hterm := (Options.rollTerm_consumes hsteps (by decide)).full [] []
  have hvalue : h.value = 5 := Hand.value_of_dropped_nil rfl
  have hsum : summarize [.dice d6 h, .constant ⟨-1, 7⟩] =
      .ok ⟨-2, [(Part.dice d6 h).text, "-7"]⟩ := by
    refine summarize_eq_ok_iff.2 ⟨fun p hp => ?_, ?_⟩
    · rcases List.mem_cons.1 hp with rfl | hp
      · rw [Part.textNumbers, Hand.textNumbers, hvalue]
        decide +kernel
      · obtain rfl := List.mem_singleton.1 hp
        decide +kernel
    · simp only [List.map_cons, List.map_nil, Part.signedValue, hvalue]
      rfl
  have hok : evaluate {} " D6 - 007" T = .ok _ _ := evaluate_eq_ok_iff.2 ⟨_, _, hread,
    cons_eq_ok_iff.2 ⟨_, _, _, rollPart_dice.2 ⟨h, _, hterm, rfl, rfl⟩, rfl, rfl⟩, hsum⟩
  have hc : canonical " D6 - 007" = .ok "+1d6-7" := by
    rw [canonical_of_readTerms hread]
    decide +kernel
  obtain ⟨_, c, -, -, hc', hsame, hagain⟩ := (canonical_evaluates {}).2 hok
  obtain rfl := Except.ok.inj (hc.symm.trans hc')
  exact ⟨(canonical_evaluates {}).1 ht hx, _, _, hok, hc, hsame, hagain⟩

end DiceRoller
