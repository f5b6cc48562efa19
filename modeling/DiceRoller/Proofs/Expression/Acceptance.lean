/-
# Which expressions can be evaluated

An expression is evaluated on some script exactly if it is a sentence of the
grammar and no term of it leaves a tag that may not be written; its parts are
then the terms of the sentence, which is the only one it can be
(`evalTerms_accepts`). Unbounded explosions are left out: with them no script
ends the chain of a die.

The tags matter: a drop of more than `digitLimit` digits is valid among the
options, yet no script at all lets it roll (`not_evalTerms_of_long_count`).

Key theorems: `sentence_of_evalTerms`, `exists_evalTerms`,
`evalTerms_accepts`.
-/
import DiceRoller.Proofs.Expression.Grammar
import DiceRoller.Proofs.Hand.Rollable
import DiceRoller.Proofs.Term.Refused

namespace DiceRoller

/-! ### Numbers of an expression -/

theorem Sentence.writable_textNumbers {d : Sentence} {t : Term} (h : t ∈ d.terms) :
    t.textNumbers.all Numeral.writable = true := by
  obtain ⟨f, s, rfl⟩ := exists_form_of_mem h
  exact f.writable_textNumbers s

theorem Sentence.writable_of_mem {d : Sentence} {t : DiceTerm} (h : Term.dice t ∈ d.terms) :
    Numeral.writable t.number = true ∧ Numeral.writable t.sides = true := by
  obtain ⟨f, s, hf⟩ := exists_form_of_mem h
  exact Form.writable_of_dice hf

/-! ### Soundness and completeness -/

section

variable {o : Options} {terms : List Term} {parts : List Part} {T T' : Trace}
  {expression : String}

theorem rollTerm_of_mem (hok : rollTerms o terms T = .ok parts T') {t : DiceTerm}
    (ht : Term.dice t ∈ terms) : ∃ s h s', o.rollTerm t s = .ok h s' := by
  induction terms generalizing T parts with
  | nil => cases ht
  | cons term terms ih =>
    obtain ⟨part, T₁, parts, hpart, hparts, -⟩ := cons_eq_ok_iff.1 hok
    rcases List.mem_cons.1 ht with rfl | ht
    · obtain ⟨h, s, hroll, -⟩ := rollPart_dice.1 hpart
      exact ⟨_, h, s, hroll⟩
    · exact ih hparts ht

/-- An expression that is evaluated is a sentence whose tags may be written,
and its parts are the terms of the sentence. -/
theorem sentence_of_evalTerms (hok : evalTerms o expression T = .ok parts T') :
    ∃ d : Sentence, d.chars = Blank.remove expression.toList ∧ parts.map Part.term = d.terms ∧
      ∀ t, Term.dice t ∈ d.terms → o.TagsWritable t := by
  obtain ⟨terms, hread, hroll⟩ := evalTerms_eq_ok_iff.1 hok
  obtain ⟨d, hchars, rfl⟩ := readTerms_eq_ok_iff.1 hread
  refine ⟨d, hchars, term_of_rollTerms hroll, fun t ht => ?_⟩
  obtain ⟨s, h, s', hterm⟩ := rollTerm_of_mem hroll ht
  exact Options.tagsWritable_of_ok hterm (Sentence.writable_of_mem ht).2

theorem rollTerms_ones (hu : ∀ e, o.explode = some e → e.unbounded = false)
    (hw : ∀ t, Term.dice t ∈ terms → o.TagsWritable t ∧ Numeral.writable t.number = true) :
    ∃ (n : Nat) (parts : List Part), ∀ passed rest log, ∃ passed' log',
      rollTerms o terms ⟨.scripted ⟨passed, List.replicate n 1 ++ rest⟩, log⟩ =
        .ok parts ⟨.scripted ⟨passed', rest⟩, log'⟩ := by
  induction terms with
  | nil => exact ⟨0, [], fun passed rest log => ⟨passed, log, rfl⟩⟩
  | cons term terms ih =>
    obtain ⟨n, parts, hparts⟩ := ih fun t ht => hw t (List.mem_cons_of_mem _ ht)
    cases term with
    | constant c =>
      refine ⟨n, .constant c :: parts, fun passed rest log => ?_⟩
      obtain ⟨passed', log', hok⟩ := hparts passed rest log
      exact ⟨passed', log', cons_eq_ok_iff.2 ⟨_, _, _, rfl, hok, rfl⟩⟩
    | dice t =>
      obtain ⟨htags, hnum⟩ := hw t List.mem_cons_self
      obtain ⟨k, h, hroll⟩ := Options.rollTerm_ones htags (fun _ _ _ => hnum) hu
      refine ⟨k + n, .dice t h :: parts, fun passed rest log => ?_⟩
      rw [← List.replicate_append_replicate, List.append_assoc]
      have hterm := hroll passed (List.replicate n 1 ++ rest)
      obtain ⟨passed', log', hok⟩ := hparts _ rest _
      exact ⟨passed', log', cons_eq_ok_iff.2
        ⟨_, _, _, rollPart_dice.2 ⟨h, _, hterm, rfl, rfl⟩, hok, rfl⟩⟩

/-- A sentence whose tags may be written is evaluated on some script. -/
theorem exists_evalTerms (hu : ∀ e, o.explode = some e → e.unbounded = false) {d : Sentence}
    (hchars : d.chars = Blank.remove expression.toList)
    (hw : ∀ t, Term.dice t ∈ d.terms → o.TagsWritable t) :
    ∃ values parts T', evalTerms o expression ⟨.scripted (.ofList values), []⟩ = .ok parts T' := by
  have hread : readTerms expression = .ok d.terms := readTerms_eq_ok_iff.2 ⟨d, hchars, rfl⟩
  obtain ⟨n, parts, hparts⟩ := rollTerms_ones hu fun t ht =>
    ⟨hw t ht, (Sentence.writable_of_mem ht).1⟩
  obtain ⟨passed', log', hok⟩ := hparts [] [] []
  exact ⟨_, parts, _, evalTerms_eq_ok_iff.2 ⟨d.terms, hread, hok⟩⟩

/-- An expression is evaluated on some script exactly if it is a sentence, apart
from its blanks, and the tags of its terms may be written. Whatever is evaluated
is one sentence only, and gives the terms of that. -/
theorem evalTerms_accepts (hu : ∀ e, o.explode = some e → e.unbounded = false)
    (expression : String) :
    ((∃ values parts T', evalTerms o expression ⟨.scripted (.ofList values), []⟩ = .ok parts T') ↔
      ∃ d : Sentence, d.chars = Blank.remove expression.toList ∧
        ∀ t, Term.dice t ∈ d.terms → o.TagsWritable t) ∧
    ∀ (script : Script) (log : List LogEntry) (parts : List Part) (T' : Trace),
      evalTerms o expression ⟨.scripted script, log⟩ = .ok parts T' →
      ∃ d : Sentence, d.chars = Blank.remove expression.toList ∧
        (∀ d' : Sentence, d'.chars = Blank.remove expression.toList → d' = d) ∧
        parts.map Part.term = d.terms := by
  refine ⟨⟨?_, ?_⟩, ?_⟩
  · rintro ⟨values, parts, T', hok⟩
    obtain ⟨d, hchars, -, hw⟩ := sentence_of_evalTerms hok
    exact ⟨d, hchars, hw⟩
  · rintro ⟨d, hchars, hw⟩
    exact exists_evalTerms hu hchars hw
  · intro script log parts T' hok
    obtain ⟨d, hchars, hterms, -⟩ := sentence_of_evalTerms hok
    refine ⟨d, hchars, fun d' hd' => ?_, hterms⟩
    exact Sentence.chars_injective (hd'.trans hchars.symm)

/-- A constant and dice with letters of both cases and blanks between them. -/
theorem evalTerms_accepts_mixed :
    let o : Options := ⟨none, none, none, some ⟨.atLeast 6, 0⟩, none, none⟩
    (∃ d : Sentence, d.chars = Blank.remove "- 7 + D 6".toList) ∧
      ∃ values parts T', evalTerms o "- 7 + D 6" ⟨.scripted (.ofList values), []⟩ =
        .ok parts T' := by
  intro o
  have hu : ∀ e, o.explode = some e → e.unbounded = false := by
    intro e he
    cases he
    rfl
  let seven : DigitRun := ⟨['7'], ⟨nofun, by simp⟩, by decide +kernel⟩
  let six : DigitRun := ⟨['6'], ⟨nofun, by simp⟩, by decide +kernel⟩
  let d : Sentence := ⟨some .minus, .constant seven,
    [(.plus, .singleDie ⟨'D', .inr rfl⟩ six (by decide))]⟩
  have hchars : d.chars = Blank.remove "- 7 + D 6".toList := by decide +kernel
  have hw : ∀ t, Term.dice t ∈ d.terms → o.TagsWritable t := by
    intro t _
    refine ⟨nofun, nofun, nofun, ?_⟩
    intro e n he hn hlow
    cases he
    cases hn
    exact absurd hlow (by decide)
  exact ⟨⟨d, hchars⟩, (evalTerms_accepts hu "- 7 + D 6").1.2 ⟨d, hchars, hw⟩⟩

theorem not_evalTerms_of_dropLowest {d : DropCount} {t : DiceTerm} (hd : o.dropLowest = some d)
    (hcount : Numeral.writable d.count = false) (hread : readTerms expression = .ok terms)
    (ht : Term.dice t ∈ terms) (T : Trace) :
    ¬ ∃ parts T', evalTerms o expression T = .ok parts T' := by
  rintro ⟨parts, T', hok⟩
  obtain ⟨terms', hread', hroll⟩ := evalTerms_eq_ok_iff.1 hok
  obtain rfl := Except.ok.inj (hread'.symm.trans hread)
  obtain ⟨sentence, -, rfl⟩ := readTerms_eq_ok_iff.1 hread
  obtain ⟨s, h, s', hterm⟩ := rollTerm_of_mem hroll ht
  have hw := Options.tagsWritable_of_ok hterm (Sentence.writable_of_mem ht).2
  exact Bool.false_ne_true (hcount.symm.trans (hw.dropLowest d hd))

/-- A die is a sentence, and there is no explosion, yet no script lets the die
be rolled if the options drop more values than can be written. -/
theorem not_evalTerms_of_long_count :
    let o : Options := { dropLowest := some ⟨Nat.pow 10 Numeral.digitLimit⟩ }
    (∀ e, o.explode = some e → e.unbounded = false) ∧
      (∃ d : Sentence, d.chars = Blank.remove "d6".toList) ∧
      ¬ ∃ values parts T', evalTerms o "d6" ⟨.scripted (.ofList values), []⟩ = .ok parts T' := by
  have hlimit := not_writable_limit
  -- which number it is does not matter, and it is too large to be looked at
  generalize Nat.pow 10 Numeral.digitLimit = n at hlimit ⊢
  intro o
  let t : DiceTerm := ⟨1, 1, 6, 0, by decide, by decide, by decide⟩
  have hread : readTerms "d6" = .ok [.dice t] := by decide +kernel
  obtain ⟨d, hchars, -⟩ := readTerms_eq_ok_iff.1 hread
  refine ⟨nofun, ⟨d, hchars⟩, ?_⟩
  rintro ⟨values, hok⟩
  exact not_evalTerms_of_dropLowest rfl hlimit hread List.mem_cons_self _ hok

end

end DiceRoller
