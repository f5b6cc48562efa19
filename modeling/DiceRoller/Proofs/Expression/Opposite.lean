/-
# Every sign turned into the other one

An expression is opposed by writing a minus for each plus and a plus for each
minus, with a minus in front if it begins with no sign. Apart from blanks that is
the sentence with every sign turned round (`Sentence.opposite`), so its terms are
those of the expression with the other sign each (`readTerms_opposed_iff`).

A roll does not look at the sign of its term, so both expressions are rolled alike
(`rollTerms_opposite`), and sign and hand are the only things that parts are made
of. The total is the other way round, the rolls and what was done to them are the
same, and the texts differ in their first character (`evaluate_opposed`).

Key definitions: `opposed`, `Sentence.opposite`, `Part.opposite`, `OppositeTexts`.
Key theorems: `readTerms_opposed_iff`, `rollTerms_opposite`, `summarize_opposite_iff`,
`evaluate_opposed`.
-/
import DiceRoller.Proofs.Expression.Alike
import DiceRoller.Proofs.Expression.Joined
import DiceRoller.Proofs.Hand.Unambiguous
import DiceRoller.Proofs.Hand.Unsigned

namespace DiceRoller

/-! ### The other sign -/

namespace Sign

/-- The other one of the two signs. -/
def opposite : Sign → Sign
  | plus => minus
  | minus => plus

@[simp] theorem opposite_opposite (s : Sign) : s.opposite.opposite = s := by cases s <;> rfl

theorem factor_opposite (s : Sign) : s.opposite.factor = -s.factor := by cases s <;> rfl

/-- A sign is exchanged for the other one; any other character stays. -/
def exchange (c : Char) : Char :=
  match ofChar? c with
  | some s => s.opposite.char
  | none => c

theorem exchange_char (s : Sign) : exchange s.char = s.opposite.char := by
  rw [exchange, ofChar?_char]

theorem exchange_of_none {c : Char} (h : ofChar? c = none) : exchange c = c := by
  rw [exchange, h]

@[simp] theorem exchange_exchange (c : Char) : exchange (exchange c) = c := by
  cases h : ofChar? c with
  | none => rw [exchange_of_none h, exchange_of_none h]
  | some s =>
    obtain rfl := ofChar?_eq_some_iff.1 h
    rw [exchange_char, exchange_char, opposite_opposite]

theorem isBlank_exchange (c : Char) : Blank.isBlank (exchange c) = Blank.isBlank c := by
  cases h : ofChar? c with
  | none => rw [exchange_of_none h]
  | some s =>
    obtain rfl := ofChar?_eq_some_iff.1 h
    rw [exchange_char, Token.isBlank_char, Token.isBlank_char]

theorem remove_map_exchange (cs : List Char) :
    Blank.remove (cs.map exchange) = (Blank.remove cs).map exchange := by
  rw [Blank.remove, Blank.remove, List.filter_map]
  congr 1
  exact List.filter_congr fun c _ => by rw [Function.comp_apply, isBlank_exchange]

end Sign

/-- The dice with the other sign. -/
def DiceTerm.opposite (t : DiceTerm) : DiceTerm := { t with sign := -t.sign }

/-- The term with the other sign. -/
def Term.opposite : Term → Term
  | constant t => constant { t with sign := -t.sign }
  | dice t => dice t.opposite

theorem Form.term_opposite (f : Form) (s : Sign) : f.term s.opposite = (f.term s).opposite := by
  cases f <;> simp only [term, Sign.factor_opposite] <;> rfl

/-! ### The expression with the other signs -/

/-- The expression with every sign exchanged, and a minus in front of it if it
begins with no sign. -/
def opposed (expression : String) : String :=
  let exchanged := String.ofList (expression.toList.map Sign.exchange)
  if (leadingSign? expression).isSome then exchanged else "-" ++ exchanged

theorem remove_opposed (e : String) : Blank.remove (opposed e).toList =
    (if (leadingSign? e).isSome then [] else ['-']) ++
      (Blank.remove e.toList).map Sign.exchange := by
  unfold opposed
  split
  · rw [String.toList_ofList, Sign.remove_map_exchange, List.nil_append]
  · have hminus : Blank.remove "-".toList = ['-'] := by decide
    rw [String.toList_append, Blank.remove_append, hminus, String.toList_ofList,
      Sign.remove_map_exchange]

/-- An opposed expression begins with a sign, the other one of the first term. -/
theorem leadingSign?_opposed (e : String) :
    leadingSign? (opposed e) = some ((leadingSign? e).getD .plus).opposite := by
  rw [leadingSign?, remove_opposed]
  cases hlead : leadingSign? e with
  | none => rfl
  | some s =>
    obtain ⟨c, hhead, hc⟩ := Option.bind_eq_some_iff.1 hlead
    obtain rfl := Sign.ofChar?_eq_some_iff.1 hc
    obtain ⟨cs, hcs⟩ := List.head?_eq_some_iff.1 hhead
    rw [hcs]
    show Sign.ofChar? (Sign.exchange s.char) = some s.opposite
    rw [Sign.exchange_char, Sign.ofChar?_char]

namespace Sentence

/-- The sentence with the other sign in front of each term. -/
def opposite (d : Sentence) : Sentence :=
  ⟨some (d.lead.getD .plus).opposite, d.first, d.rest.map fun p => (p.1.opposite, p.2)⟩

theorem terms_opposite (d : Sentence) : d.opposite.terms = d.terms.map Term.opposite := by
  simp [opposite, terms, Form.term_opposite]

theorem map_exchange_form (f : Form) : f.chars.map Sign.exchange = f.chars :=
  (List.map_congr_left fun _ hc => Sign.exchange_of_none (f.isBodyChar_of_mem hc).1).trans
    (List.map_id _)

theorem map_exchange_restChars (rest : List (Sign × Form)) :
    (restChars rest).map Sign.exchange = restChars (rest.map fun p => (p.1.opposite, p.2)) := by
  induction rest with
  | nil => rfl
  | cons p rest ih =>
    have hcons (p : Sign × Form) (rest : List (Sign × Form)) :
      restChars (p :: rest) = p.1.char :: (p.2.chars ++ restChars rest) := rfl
    rw [List.map_cons, hcons, hcons, List.map_cons, List.map_append, Sign.exchange_char,
      map_exchange_form, ih]

/-- The signs of the sentence are exchanged, and a minus is put in front of the
first term if it had none. -/
theorem chars_opposite (d : Sentence) : d.opposite.chars =
    (if d.lead.isSome then [] else ['-']) ++ d.chars.map Sign.exchange := by
  obtain ⟨lead, first, rest⟩ := d
  cases lead with
  | none => simp [opposite, chars, map_exchange_form, map_exchange_restChars, Sign.opposite, Sign.char]
  | some s => simp [opposite, chars, map_exchange_form, map_exchange_restChars, Sign.exchange_char]

theorem lead_of_chars {d : Sentence} {e : String} (h : d.chars = Blank.remove e.toList) :
    d.lead = leadingSign? e := by
  rw [leadingSign?, ← h, d.head?_chars]

end Sentence

/-- An opposed expression can be read exactly if the expression can, and has its
terms with the other signs. -/
theorem readTerms_opposed_iff {e : String} {us : List Term} : readTerms (opposed e) = .ok us ↔
    ∃ ts, readTerms e = .ok ts ∧ ts.map Term.opposite = us := by
  constructor
  · intro h
    obtain ⟨d', hchars, rfl⟩ := readTerms_eq_ok_iff.1 h
    have hlead := Sentence.lead_of_chars hchars
    rw [leadingSign?_opposed] at hlead
    obtain ⟨lead, first, rest⟩ := d'
    obtain rfl : lead = some ((leadingSign? e).getD .plus).opposite := hlead
    -- the signs are turned round once more, but for one that was put in front
    let d : Sentence := ⟨leadingSign? e, first, rest.map fun p => (p.1.opposite, p.2)⟩
    have hd : d.opposite = ⟨some ((leadingSign? e).getD .plus).opposite, first, rest⟩ := by
      simp [d, Sentence.opposite, Function.comp_def]
    have hmap : d.chars.map Sign.exchange = (Blank.remove e.toList).map Sign.exchange := by
      rw [remove_opposed, ← hd, Sentence.chars_opposite] at hchars
      exact List.append_cancel_left hchars
    have hexchange : Function.Injective Sign.exchange :=
      Function.LeftInverse.injective Sign.exchange_exchange
    refine ⟨d.terms, readTerms_eq_ok_iff.2 ⟨d, hexchange.list_map hmap, rfl⟩, ?_⟩
    rw [← d.terms_opposite, hd]
  · rintro ⟨ts, h, rfl⟩
    obtain ⟨d, hchars, rfl⟩ := readTerms_eq_ok_iff.1 h
    refine readTerms_eq_ok_iff.2 ⟨d.opposite, ?_, d.terms_opposite⟩
    rw [d.chars_opposite, remove_opposed, Sentence.lead_of_chars hchars, hchars]

/-! ### Rolling the opposite terms -/

/-- The part with the other sign. -/
def Part.opposite : Part → Part
  | constant t => constant { t with sign := -t.sign }
  | dice t h => dice t.opposite h

theorem rollPart_opposite (o : Options) (t : Term) :
    Alike SameSource (rollPart o t) (rollPart o t.opposite) (fun p q => q = p.opposite)
      SameSource := by
  cases t with
  | constant c => exact .pure rfl
  | dice t =>
    have hroll (s : Source) : EndsAlike Eq Eq (o.rollTerm t s) (o.rollTerm t.opposite s) := by
      rw [o.rollTerm_congr (t := t.opposite) (u := t) rfl rfl rfl]
      exact .refl _
    refine (Evaluation.roll_alike hroll).bind fun h _ hh => ?_
    subst hh
    exact .pure rfl

/-- Opposite terms are rolled with the same source and come to the same hands. -/
theorem rollTerms_opposite (o : Options) (ts : List Term) :
    Alike SameSource (rollTerms o ts) (rollTerms o (ts.map Term.opposite))
      (fun ps qs => qs = ps.map Part.opposite) SameSource := by
  induction ts with
  | nil => exact .pure rfl
  | cons t ts ih =>
    refine (rollPart_opposite o t).bind fun p _ hp => ih.bind fun ps _ hps => .pure ?_
    rw [hp, hps, List.map_cons]

/-! ### The opposite total -/

namespace Part

theorem signedValue_opposite (p : Part) : p.opposite.signedValue = -p.signedValue := by
  cases p with
  | constant t => exact Int.neg_mul _ _
  | dice t h => exact Int.neg_mul _ _

theorem textNumbers_opposite (p : Part) : p.opposite.textNumbers = p.textNumbers := by
  cases p <;> rfl

/-- The text of a part begins with its sign. -/
theorem exists_text (p : Part) : ∃ cs, p.text.toList = signChar p.term.sign :: cs ∧
    p.opposite.text.toList = signChar (-p.term.sign) :: cs := by
  cases p with
  | constant t => exact ⟨_, t.toList_text, ConstantTerm.toList_text _⟩
  | dice t h =>
    have htext (u : DiceTerm) : (h.text u.text).toList = signChar u.sign :: (u.spelling.chars ++
        (String.join (h.tags.map fun t => " " ++ t.2) ++ " [" ++ h.annotated ++ "]=" ++
          toString h.value).toList) := by
      simp [Hand.text, Hand.heading, DiceTerm.toList_text]
    exact ⟨_, htext t, htext t.opposite⟩

end Part

/-- Texts that begin with opposite signs, and go on alike. -/
def OppositeTexts (a b : String) : Prop :=
  ∃ (s : Sign) (cs : List Char), a.toList = s.char :: cs ∧ b.toList = s.opposite.char :: cs

theorem oppositeTexts_of_signed {p : Part} {s : Sign} (hs : p.term.sign = s.factor) :
    OppositeTexts p.text p.opposite.text := by
  obtain ⟨cs, h, h'⟩ := p.exists_text
  rw [hs, signChar_factor] at h
  rw [hs, ← Sign.factor_opposite, signChar_factor] at h'
  exact ⟨s, cs, h, h'⟩

theorem total_opposite (ps : List Part) :
    ((ps.map Part.opposite).map Part.signedValue).foldr (· + ·) 0 =
      -(ps.map Part.signedValue).foldr (· + ·) 0 := by
  induction ps with
  | nil => rfl
  | cons p ps ih =>
    simp only [List.map_cons, List.foldr_cons, ih, Part.signedValue_opposite, Int.neg_add]

/-- Opposite parts are summed up together with the parts. -/
theorem summarize_opposite_iff {ps : List Part} {out : Outcome} :
    summarize (ps.map Part.opposite) = .ok out ↔
      ∃ out', summarize ps = .ok out' ∧
        out = ⟨-out'.total, (ps.map Part.opposite).map Part.text⟩ := by
  simp only [summarize_eq_ok_iff, List.forall_mem_map, Part.textNumbers_opposite, total_opposite]
  constructor
  · rintro ⟨hw, rfl⟩
    exact ⟨_, ⟨hw, rfl⟩, rfl⟩
  · rintro ⟨_, ⟨hw, rfl⟩, rfl⟩
    exact ⟨hw, rfl⟩

/-! ### Evaluating the opposed expression -/

variable {o : Options} {e : String} {T T₁ T₂ : Trace} {out out' : Outcome}

/-- An expression that is evaluated is evaluated with the other signs, too. -/
theorem evaluate_opposed_of_ok (hok : evaluate o e T = .ok out T₁) :
    ∃ ps T₂, evalTerms o e T = .ok ps T₁ ∧ out.parts = ps.map Part.text ∧
      (∀ p ∈ ps, ∃ s : Sign, p.term.sign = s.factor) ∧ SameSource T₁ T₂ ∧
      evalTerms o (opposed e) T = .ok (ps.map Part.opposite) T₂ ∧
      evaluate o (opposed e) T = .ok ⟨-out.total, (ps.map Part.opposite).map Part.text⟩ T₂ := by
  obtain ⟨ts, ps, hread, hroll, hsum⟩ := evaluate_eq_ok_iff.1 hok
  obtain ⟨_, T₂, hroll', rfl, hs⟩ := (rollTerms_opposite o ts T T rfl).exists_right hroll
  have hread' : readTerms (opposed e) = .ok (ts.map Term.opposite) :=
    readTerms_opposed_iff.2 ⟨ts, hread, rfl⟩
  refine ⟨ps, T₂, evalTerms_eq_ok_iff.2 ⟨ts, hread, hroll⟩, ?_, fun p hp => ?_, hs,
    evalTerms_eq_ok_iff.2 ⟨_, hread', hroll'⟩,
    evaluate_eq_ok_iff.2 ⟨_, _, hread', hroll', summarize_opposite_iff.2 ⟨out, hsum, rfl⟩⟩⟩
  · rw [(summarize_eq_ok_iff.1 hsum).2]
  · obtain ⟨d, -, rfl⟩ := readTerms_eq_ok_iff.1 hread
    have hterm : p.term ∈ d.terms := by
      rw [← term_of_rollTerms hroll]
      exact List.mem_map_of_mem hp
    obtain ⟨f, s, hf⟩ := Sentence.exists_form_of_mem hterm
    exact ⟨s, by rw [← hf, f.sign_term]⟩

theorem exists_evaluate_of_opposed (hok : evaluate o (opposed e) T = .ok out' T₂) :
    ∃ out T₁, evaluate o e T = .ok out T₁ := by
  obtain ⟨us, qs, hread', hroll', hsum'⟩ := evaluate_eq_ok_iff.1 hok
  obtain ⟨ts, hread, rfl⟩ := readTerms_opposed_iff.1 hread'
  obtain ⟨ps, T₁, hroll, rfl, -⟩ := (rollTerms_opposite o ts T T rfl).exists_left hroll'
  obtain ⟨out, hsum, -⟩ := summarize_opposite_iff.1 hsum'
  exact ⟨out, T₁, evaluate_eq_ok_iff.2 ⟨ts, ps, hread, hroll, hsum⟩⟩

/-- **Signs only scale.** An expression is evaluated with success exactly if it is
with every sign turned round. Then the totals are opposite, and so are the first
characters of the parts, which go on alike; each part has the same hand, and the
same source is left. -/
theorem evaluate_opposed (o : Options) (e : String) (T : Trace) :
    ((∃ out T₁, evaluate o e T = .ok out T₁) ↔
      ∃ out' T₂, evaluate o (opposed e) T = .ok out' T₂) ∧
    ∀ out T₁ out' T₂, evaluate o e T = .ok out T₁ → evaluate o (opposed e) T = .ok out' T₂ →
      out'.total = -out.total ∧ List.Forall₂ OppositeTexts out.parts out'.parts ∧
      (∃ ps, evalTerms o e T = .ok ps T₁ ∧
        evalTerms o (opposed e) T = .ok (ps.map Part.opposite) T₂) ∧
      T₂.source = T₁.source := by
  refine ⟨⟨?_, ?_⟩, fun out T₁ out' T₂ hok hok' => ?_⟩
  · rintro ⟨out, T₁, hok⟩
    obtain ⟨ps, T₂, -, -, -, -, -, hok'⟩ := evaluate_opposed_of_ok hok
    exact ⟨_, T₂, hok'⟩
  · rintro ⟨out', T₂, hok'⟩
    exact exists_evaluate_of_opposed hok'
  · obtain ⟨ps, T₃, hterms, hparts, hsigns, hs, hterms', hevaluate⟩ := evaluate_opposed_of_ok hok
    cases hok'.symm.trans hevaluate
    refine ⟨rfl, ?_, ⟨ps, hterms, hterms'⟩, hs.symm⟩
    rw [hparts, List.map_map, List.forall₂_map_left_iff, List.forall₂_map_right_iff,
      List.forall₂_same]
    intro p hp
    obtain ⟨s, hsign⟩ := hsigns p hp
    exact oppositeTexts_of_signed hsign

/-- A blank stands in front of the first term, which has no sign. -/
theorem evaluate_opposed_unsigned :
    let T : Trace := ⟨.scripted (.ofList [5]), []⟩
    opposed " d6 - 2" = "- d6 + 2" ∧ ∃ out out' T₁ T₂, evaluate {} " d6 - 2" T = .ok out T₁ ∧
      evaluate {} "- d6 + 2" T = .ok out' T₂ ∧ out.total = 3 ∧ out'.total = -3 ∧
      List.Forall₂ OppositeTexts out.parts out'.parts ∧ T₂.source = T₁.source := by
  intro T
  let d6 : DiceTerm := ⟨1, 1, 6, 0, by decide, by decide, by decide⟩
  let h6 : Hand := { rolls := [5] }
  have hopposed : opposed " d6 - 2" = "- d6 + 2" := by decide +kernel
  have hread : readTerms " d6 - 2" = .ok [.dice d6, .constant ⟨-1, 2⟩] := by decide +kernel
  have hsteps : Modifier.Steps d6 (Options.modifiersFor {} d6) {} [5] h6 :=
    Options.steps_plain rfl rfl
  have hd6 := (Options.rollTerm_consumes hsteps (by decide)).full [] []
  have hvalue : h6.value = 5 := Hand.value_of_dropped_nil rfl
  have hsum : summarize [.dice d6 h6, .constant ⟨-1, 2⟩] =
      .ok ⟨3, [Part.text (.dice d6 h6), "-2"]⟩ := by
    refine summarize_eq_ok_iff.2 ⟨fun p hp => ?_, ?_⟩
    · rcases List.mem_cons.1 hp with rfl | hp
      · rw [Part.textNumbers, Hand.textNumbers, hvalue]
        decide +kernel
      · obtain rfl := List.mem_singleton.1 hp
        decide +kernel
    · have htotal : [Part.dice d6 h6, .constant ⟨-1, 2⟩].map Part.signedValue = [5, -2] := by
        simp [Part.signedValue, hvalue, d6, ConstantTerm.signedValue]
      rw [htotal]
      rfl
  have hok : evaluate {} " d6 - 2" T = .ok ⟨3, [Part.text (.dice d6 h6), "-2"]⟩ _ :=
    evaluate_eq_ok_iff.2 ⟨_, _, hread, cons_eq_ok_iff.2
      ⟨_, _, _, rollPart_dice.2 ⟨h6, _, hd6, rfl, rfl⟩, rfl, rfl⟩, hsum⟩
  obtain ⟨hiff, hboth⟩ := evaluate_opposed {} " d6 - 2" T
  obtain ⟨out', T₂, hok'⟩ := hiff.1 ⟨_, _, hok⟩
  obtain ⟨htotal, hparts, -, hsource⟩ := hboth _ _ _ _ hok hok'
  rw [hopposed] at hok'
  exact ⟨hopposed, _, out', _, T₂, hok, hok', rfl, htotal, hparts, hsource⟩

end DiceRoller
