/-
# The totals that an expression can have

Without explosions each term of an expression adds to the total something
between two bounds: a constant its signed value, and dice what as many dice as
are kept can show, with their sign (`Term.least`, `Term.greatest`). The bounds
of a sentence are the sums of those of its terms.

With scripts an expression has every total between its bounds, and no other one
(`totals_eq_range`): each dice term can be given a worth of its own, since the
scripts for the terms are played one after the other.

This takes for granted that the tags may be written. An option that drops more
than can be written drops everything, so the bounds of a die are both zero; yet
the die has no total at all (`not_mem_totals_of_long_count`).

Key definitions: `Term.least`, `Term.greatest`, `Sentence.least`,
`Sentence.greatest`, `totals`.
Key theorems: `Deals.bounds`, `exists_rollTerms_sum`, `totals_eq_range`.
-/
import DiceRoller.Proofs.Expression.Acceptance
import DiceRoller.Proofs.Expression.Replay
import DiceRoller.Proofs.Hand.Worth

namespace DiceRoller

/-! ### The bounds of a term -/

namespace Term

/-- The least that the term can add to the total, without explosions. -/
def least (o : Options) : Term → Int
  | constant t => t.signedValue
  | dice t => if t.sign < 0 then -(o.keptCount t * t.sides) else o.keptCount t

/-- The most that the term can add to the total, without explosions. -/
def greatest (o : Options) : Term → Int
  | constant t => t.signedValue
  | dice t => if t.sign < 0 then -o.keptCount t else o.keptCount t * t.sides

/-- The factor of the term is that of a sign. -/
def Signed (t : Term) : Prop := ∃ s : Sign, t.sign = s.factor

variable {o : Options}

theorem least_le_greatest (o : Options) (t : Term) : t.least o ≤ t.greatest o := by
  cases t with
  | constant t => exact Int.le_refl _
  | dice t =>
    have hsides := t.two_le_sides
    have hmul : (o.keptCount t : Int) ≤ o.keptCount t * t.sides := by
      exact_mod_cast Nat.le_mul_of_pos_right _ (by omega)
    rw [least, greatest]
    split <;> omega

/-- With its sign the worth of dice is between the bounds exactly if the worth
itself is one that so many dice can show. -/
theorem signed_between_iff {t : DiceTerm} (hsign : (dice t).Signed) {x : Int} :
    (dice t).least o ≤ t.sign * x ∧ t.sign * x ≤ (dice t).greatest o ↔
      (o.keptCount t : Int) ≤ x ∧ x ≤ o.keptCount t * t.sides := by
  obtain ⟨s, hs⟩ := hsign
  cases s with
  | plus =>
    have hone : t.sign = 1 := hs
    rw [least, greatest, hone, if_neg (by decide), if_neg (by decide), Int.one_mul]
  | minus =>
    have hone : t.sign = -1 := hs
    rw [least, greatest, hone, if_pos (by decide), if_pos (by decide)]
    omega

theorem sum_least_le_sum_greatest (o : Options) (terms : List Term) :
    (terms.map (least o)).sum ≤ (terms.map (greatest o)).sum :=
  List.sum_le_sum fun t _ => least_le_greatest o t

end Term

namespace Sentence

/-- The least total of the sentence, without explosions. -/
def least (o : Options) (d : Sentence) : Int := (d.terms.map (Term.least o)).sum

/-- The greatest total of the sentence, without explosions. -/
def greatest (o : Options) (d : Sentence) : Int := (d.terms.map (Term.greatest o)).sum

theorem signed_of_mem {d : Sentence} {t : Term} (h : t ∈ d.terms) : t.Signed := by
  obtain ⟨f, s, rfl⟩ := exists_form_of_mem h
  exact ⟨s, f.sign_term s⟩

end Sentence

/-! ### No total is outside the bounds -/

section

variable {o : Options} {s s' : Source} {terms : List Term} {parts : List Part}
  {drawn : List (List Int)} {expression : String}

theorem Deals.bounds (hexplode : o.explode = none) (hd : Deals o s parts drawn s')
    (hsigned : ∀ p ∈ parts, p.term.Signed) :
    ((parts.map Part.term).map (Term.least o)).sum ≤ (parts.map Part.signedValue).sum ∧
      (parts.map Part.signedValue).sum ≤ ((parts.map Part.term).map (Term.greatest o)).sum := by
  induction hd with
  | nil => exact ⟨Int.le_refl _, Int.le_refl _⟩
  | @constant c _ _ parts _ _ ih =>
    obtain ⟨hlow, hhigh⟩ := ih fun p hp => hsigned p (List.mem_cons_of_mem _ hp)
    simp only [List.map_cons, List.sum_cons]
    exact ⟨Int.add_le_add_left hlow _, Int.add_le_add_left hhigh _⟩
  | @dice t h _ _ _ vs parts _ hs hg _ ih =>
    obtain ⟨hlow, hhigh⟩ := ih fun p hp => hsigned p (List.mem_cons_of_mem _ hp)
    have hworth := Options.value_bounds hexplode hs hg.mem_range
    have hfirst := (Term.signed_between_iff (hsigned _ List.mem_cons_self)).2 hworth
    simp only [List.map_cons, List.sum_cons]
    exact ⟨Int.add_le_add hfirst.1 hlow, Int.add_le_add hfirst.2 hhigh⟩

/-! ### Every total within the bounds can be had -/

theorem exists_rollPart_value (hexplode : o.explode = none) {term : Term} {x : Int}
    (hw : ∀ t, term = .dice t → o.TagsWritable t ∧ Numeral.writable t.number = true)
    (hsigned : term.Signed) (hlow : term.least o ≤ x) (hhigh : x ≤ term.greatest o) :
    ∃ values part, part.signedValue = x ∧ ∀ log, Consumes (rollPart o term) (.playing log) values
      part (.playing (log ++ part.entries)) := by
  cases term with
  | constant c =>
    obtain rfl : c.signedValue = x := Int.le_antisymm hlow hhigh
    refine ⟨[], .constant c, rfl, fun log => .quiet fun p => ?_⟩
    rw [Part.entries, List.append_nil]
    rfl
  | dice t =>
    obtain ⟨htags, hnum⟩ := hw t rfl
    have hsquare : t.sign * (t.sign * x) = x := by
      obtain ⟨s, hs⟩ := hsigned
      have hfactor : t.sign = s.factor := hs
      rw [hfactor]
      cases s <;> simp only [Sign.factor] <;> omega
    have hworth := (Term.signed_between_iff (o := o) (x := t.sign * x) hsigned).1
      ⟨by rw [hsquare]; exact hlow, by rw [hsquare]; exact hhigh⟩
    obtain ⟨vs, h, hs, hvs, hvalue⟩ := Options.exists_worth hexplode htags hnum hworth.1 hworth.2
    refine ⟨vs, .dice t h, ?_, fun log => ?_⟩
    · rw [Part.signedValue, hvalue, hsquare]
    · exact (roll_consumes (Options.rollTerm_consumes hs hvs) log).then_quiet fun _ => rfl

theorem exists_rollTerms_sum (hexplode : o.explode = none)
    (hw : ∀ t, Term.dice t ∈ terms → o.TagsWritable t ∧ Numeral.writable t.number = true)
    (hsigned : ∀ t ∈ terms, t.Signed) {total : Int}
    (hlow : (terms.map (Term.least o)).sum ≤ total)
    (hhigh : total ≤ (terms.map (Term.greatest o)).sum) :
    ∃ values parts, (parts.map Part.signedValue).sum = total ∧ ∀ log, Consumes (rollTerms o terms)
      (.playing log) values parts (.playing (log ++ parts.flatMap Part.entries)) := by
  induction terms generalizing total with
  | nil =>
    refine ⟨[], [], Int.le_antisymm hlow hhigh, fun log => .quiet fun p => ?_⟩
    rw [List.flatMap_nil, List.append_nil]
    rfl
  | cons term terms ih =>
    rw [List.map_cons, List.sum_cons] at hlow hhigh
    have hfirst := term.least_le_greatest o
    have hrest := Term.sum_least_le_sum_greatest o terms
    -- the first term adds as little as the other ones allow
    obtain ⟨x, hx₁, hx₂, hx₃, hx₄⟩ : ∃ x, term.least o ≤ x ∧ x ≤ term.greatest o ∧
        (terms.map (Term.least o)).sum ≤ total - x ∧
        total - x ≤ (terms.map (Term.greatest o)).sum :=
      ⟨max (term.least o) (total - (terms.map (Term.greatest o)).sum),
        by omega, by omega, by omega, by omega⟩
    obtain ⟨vs, part, hvalue, hpart⟩ := exists_rollPart_value hexplode
      (fun t ht => hw t (ht ▸ List.mem_cons_self)) (hsigned term List.mem_cons_self) hx₁ hx₂
    obtain ⟨ws, parts, hsum, hparts⟩ := ih (fun t ht => hw t (List.mem_cons_of_mem _ ht))
      (fun t ht => hsigned t (List.mem_cons_of_mem _ ht)) hx₃ hx₄
    refine ⟨vs ++ ws, part :: parts, ?_, fun log => ?_⟩
    · rw [List.map_cons, List.sum_cons, hvalue, hsum]
      omega
    · rw [List.flatMap_cons, ← List.append_assoc]
      exact .cons (hpart log) (hparts _)

/-! ### The totals of an expression -/

/-- The sums of the signed values of the parts to which the expression is
evaluated, with whatever comes next in a script. -/
def totals (o : Options) (expression : String) (passed : List Int) (log : List LogEntry) :
    Set Int :=
  {total | ∃ pending parts T', evalTerms o expression ⟨.scripted ⟨passed, pending⟩, log⟩ =
    .ok parts T' ∧ (parts.map Part.signedValue).sum = total}

/-- **The totals of an expression.** Without explosions a sentence has exactly
the totals between its bounds, wherever the script stands at first, if the tags
of its terms may be written; otherwise it has none. -/
theorem totals_eq_range (hexplode : o.explode = none) {d : Sentence}
    (hchars : d.chars = Blank.remove expression.toList) (passed : List Int)
    (log : List LogEntry) : totals o expression passed log =
      {total | (∀ t, Term.dice t ∈ d.terms → o.TagsWritable t) ∧ d.least o ≤ total ∧
        total ≤ d.greatest o} := by
  have hread : readTerms expression = .ok d.terms := readTerms_eq_ok_iff.2 ⟨d, hchars, rfl⟩
  ext total
  constructor
  · rintro ⟨pending, parts, T', hok, rfl⟩
    obtain ⟨d', hchars', hterms, hw⟩ := sentence_of_evalTerms hok
    obtain rfl := Sentence.chars_injective (hchars'.trans hchars.symm)
    obtain ⟨terms, hread', hroll⟩ := evalTerms_eq_ok_iff.1 hok
    obtain ⟨drawn, hd⟩ := rollTerms_deals hroll
    have hbounds := hd.bounds hexplode fun p hp => Sentence.signed_of_mem (d := d') (by
      rw [← hterms]
      exact List.mem_map_of_mem hp)
    rw [hterms] at hbounds
    exact ⟨hw, hbounds⟩
  · rintro ⟨hw, hlow, hhigh⟩
    obtain ⟨values, parts, hsum, hparts⟩ := exists_rollTerms_sum hexplode
      (fun t ht => ⟨hw t ht, (Sentence.writable_of_mem ht).1⟩)
      (fun t ht => Sentence.signed_of_mem ht) hlow hhigh
    have hok := (hparts log).full passed []
    exact ⟨values ++ [], parts, _, evalTerms_eq_ok_iff.2 ⟨d.terms, hread, hok⟩, hsum⟩

/-- One die of each term is kept, and ones are rerolled. -/
theorem totals_eq_range_mixed :
    let o : Options := { reroll := some ⟨1⟩, dropHighest := some ⟨1⟩ }
    totals o "3d4dl1 - 2d6 + 2" [] [] = {total | -3 ≤ total ∧ total ≤ 5} := by
  intro o
  have hread : readTerms "3d4dl1 - 2d6 + 2" = .ok [.dice ⟨1, 3, 4, 1, by decide, by decide,
      by decide⟩, .dice ⟨-1, 2, 6, 0, by decide, by decide, by decide⟩, .constant ⟨1, 2⟩] := by
    decide +kernel
  obtain ⟨d, hchars, hterms⟩ := readTerms_eq_ok_iff.1 hread
  have hone : Numeral.writable 1 = true := by decide +kernel
  have hw : ∀ t, Term.dice t ∈ d.terms → o.TagsWritable t := by
    intro t _
    refine ⟨nofun, ?_, ?_, nofun⟩
    · rintro _ ⟨⟩
      exact hone
    · rintro _ ⟨⟩ _
      exact hone
  have hleast : d.least o = -3 := by
    rw [Sentence.least, hterms]
    decide
  have hgreatest : d.greatest o = 5 := by
    rw [Sentence.greatest, hterms]
    decide
  rw [totals_eq_range rfl hchars [] [], hleast, hgreatest]
  ext total
  exact ⟨fun h => h.2, fun h => ⟨hw, h⟩⟩

/-- If more values are dropped than can be written, a die is worth nothing, so
its bounds are zero; but with no script it has a total. -/
theorem no_totals_of_dropHighest {n : Nat} (hn : Numeral.writable n = false) :
    let o : Options := { dropHighest := some ⟨n⟩ }
    o.explode = none ∧ ∃ d : Sentence, d.chars = Blank.remove "d6".toList ∧
      d.least o = 0 ∧ d.greatest o = 0 ∧ ∀ total, total ∉ totals o "d6" [] [] := by
  intro o
  let t : DiceTerm := ⟨1, 1, 6, 0, by decide, by decide, by decide⟩
  have hread : readTerms "d6" = .ok [.dice t] := by decide +kernel
  obtain ⟨d, hchars, hterms⟩ := readTerms_eq_ok_iff.1 hread
  have hpos : n ≠ 0 := by
    rintro rfl
    exact Bool.false_ne_true (hn.symm.trans writable_zero)
  have hkept : o.keptCount t = 0 :=
    Nat.sub_eq_zero_of_le (Nat.le_trans (Nat.pos_of_ne_zero hpos) (Nat.le_add_left n _))
  refine ⟨rfl, d, hchars, ?_, ?_, ?_⟩
  · rw [Sentence.least, hterms]
    simp [Term.least, hkept]
  · rw [Sentence.greatest, hterms]
    simp [Term.greatest, hkept]
  · rintro total ⟨pending, parts, T', hok, -⟩
    obtain ⟨d', hchars', -, hw⟩ := sentence_of_evalTerms hok
    obtain rfl := Sentence.chars_injective (hchars'.trans hchars.symm)
    have htags := hw t (by rw [hterms]; exact List.mem_cons_self)
    exact Bool.false_ne_true (hn.symm.trans (htags.dropHighest _ rfl))

/-- A die has the bounds zero and zero, and no total. -/
theorem not_mem_totals_of_long_count :
    let o : Options := { dropHighest := some ⟨Nat.pow 10 Numeral.digitLimit⟩ }
    o.explode = none ∧ ∃ d : Sentence, d.chars = Blank.remove "d6".toList ∧
      d.least o = 0 ∧ d.greatest o = 0 ∧ ∀ total, total ∉ totals o "d6" [] [] :=
  no_totals_of_dropHighest not_writable_limit

end

end DiceRoller
