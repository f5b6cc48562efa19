/-
# Expressions one after the other

Two expressions are joined by writing the second one after the first, with a
plus between them unless the second one has a sign of its own. What is joined in
this way is read as the terms of the first expression and then those of the
second one (`readTerms_joined`): the sentences are put together
(`Sentence.append`), and nothing of the first one changes how the second one is
read. So to evaluate the joined expression is to evaluate one expression and
then the other with the source that is left (`evaluate_joined`).

Key definitions: `joined`, `Sentence.append`.
Key theorems: `Sentence.chars_append`, `readTerms_joined`, `evaluate_joined`.
-/
import DiceRoller.Proofs.Expression.Acceptance
import DiceRoller.Proofs.Hand.Kept
import Mathlib.Algebra.BigOperators.Group.List.Basic
import Mathlib.Algebra.Ring.Int.Defs

namespace DiceRoller

/-! ### Joining -/

/-- The sign that an expression begins with, apart from blanks. -/
def leadingSign? (expression : String) : Option Sign :=
  (Blank.remove expression.toList).head?.bind Sign.ofChar?

/-- The two expressions as one, with a plus between them unless the second one
begins with a sign. -/
def joined (e₁ e₂ : String) : String :=
  if (leadingSign? e₂).isSome then e₁ ++ e₂ else e₁ ++ "+" ++ e₂

theorem joined_of_sign {e₁ e₂ : String} {s : Sign} (h : leadingSign? e₂ = some s) :
    joined e₁ e₂ = e₁ ++ e₂ := by
  unfold joined
  rw [h]
  rfl

theorem joined_of_no_sign {e₁ e₂ : String} (h : leadingSign? e₂ = none) :
    joined e₁ e₂ = e₁ ++ "+" ++ e₂ := by
  unfold joined
  rw [h]
  rfl

namespace Sentence

/-- The terms of the second sentence after those of the first one. -/
def append (d d' : Sentence) : Sentence :=
  ⟨d.lead, d.first, d.rest ++ (d'.lead.getD .plus, d'.first) :: d'.rest⟩

theorem terms_append (d d' : Sentence) : (d.append d').terms = d.terms ++ d'.terms := by
  simp [append, terms]

/-- Between the two sentences stands the sign of the second one, a plus if it
has none. -/
theorem chars_append (d d' : Sentence) : (d.append d').chars =
    d.chars ++ (d'.lead.getD .plus).char :: (d'.first.chars ++ restChars d'.rest) := by
  simp [append, chars, restChars]

/-- A sentence begins with a sign only if it has one for its first term. -/
theorem head?_chars (d : Sentence) : d.chars.head?.bind Sign.ofChar? = d.lead := by
  obtain ⟨lead, first, rest⟩ := d
  cases lead with
  | some s =>
    have hchars : chars ⟨some s, first, rest⟩ = s.char :: (first.chars ++ restChars rest) := rfl
    rw [hchars, List.head?_cons, Option.bind_some, Sign.ofChar?_char]
  | none =>
    have hchars : chars ⟨none, first, rest⟩ = first.chars ++ restChars rest := rfl
    obtain ⟨c, cs, hfirst⟩ := List.exists_cons_of_ne_nil first.chars_ne_nil
    have hbody : Token.IsBodyChar c :=
      first.isBodyChar_of_mem (by rw [hfirst]; exact List.mem_cons_self)
    rw [hchars, hfirst, List.cons_append, List.head?_cons, Option.bind_some, hbody.1]

theorem chars_joined {e₁ e₂ : String} {d₁ d₂ : Sentence}
    (h₁ : d₁.chars = Blank.remove e₁.toList) (h₂ : d₂.chars = Blank.remove e₂.toList) :
    (d₁.append d₂).chars = Blank.remove (joined e₁ e₂).toList := by
  have hlead : leadingSign? e₂ = d₂.lead := by rw [leadingSign?, ← h₂, d₂.head?_chars]
  obtain ⟨lead, first, rest⟩ := d₂
  rw [chars_append, h₁]
  cases lead with
  | some s =>
    have hchars : Blank.remove e₂.toList = s.char :: (first.chars ++ restChars rest) := h₂.symm
    rw [joined_of_sign hlead, String.toList_append, Blank.remove_append, hchars]
    rfl
  | none =>
    have hchars : Blank.remove e₂.toList = first.chars ++ restChars rest := h₂.symm
    have hplus : Blank.remove "+".toList = ['+'] := by decide
    rw [joined_of_no_sign hlead, String.toList_append, String.toList_append, Blank.remove_append,
      Blank.remove_append, hplus, hchars, List.append_assoc]
    rfl

end Sentence

theorem readTerms_joined {e₁ e₂ : String} {ts us : List Term} (h₁ : readTerms e₁ = .ok ts)
    (h₂ : readTerms e₂ = .ok us) : readTerms (joined e₁ e₂) = .ok (ts ++ us) := by
  obtain ⟨d₁, hd₁, rfl⟩ := readTerms_eq_ok_iff.1 h₁
  obtain ⟨d₂, hd₂, rfl⟩ := readTerms_eq_ok_iff.1 h₂
  exact readTerms_eq_ok_iff.2
    ⟨d₁.append d₂, Sentence.chars_joined hd₁ hd₂, Sentence.terms_append d₁ d₂⟩

/-! ### Evaluating what is joined -/

variable {o : Options} {ps qs : List Part} {out₁ out₂ : Outcome}

theorem total_append (ps qs : List Part) :
    ((ps ++ qs).map Part.signedValue).foldr (· + ·) 0 =
      (ps.map Part.signedValue).foldr (· + ·) 0 + (qs.map Part.signedValue).foldr (· + ·) 0 := by
  show ((ps ++ qs).map Part.signedValue).sum =
    (ps.map Part.signedValue).sum + (qs.map Part.signedValue).sum
  rw [List.map_append, List.sum_append]

theorem summarize_append (h₁ : summarize ps = .ok out₁) (h₂ : summarize qs = .ok out₂) :
    summarize (ps ++ qs) = .ok ⟨out₁.total + out₂.total, out₁.parts ++ out₂.parts⟩ := by
  obtain ⟨hw₁, rfl⟩ := summarize_eq_ok_iff.1 h₁
  obtain ⟨hw₂, rfl⟩ := summarize_eq_ok_iff.1 h₂
  refine summarize_eq_ok_iff.2 ⟨fun p hp => ?_, ?_⟩
  · rcases List.mem_append.1 hp with hp | hp
    · exact hw₁ p hp
    · exact hw₂ p hp
  · rw [total_append, List.map_append]

theorem exists_summarize_of_append {out : Outcome} (h : summarize (ps ++ qs) = .ok out) :
    ∃ out₁ out₂, summarize ps = .ok out₁ ∧ summarize qs = .ok out₂ ∧
      out = ⟨out₁.total + out₂.total, out₁.parts ++ out₂.parts⟩ := by
  obtain ⟨hw, rfl⟩ := summarize_eq_ok_iff.1 h
  have h₁ := summarize_eq_ok_iff.2 ⟨fun p hp => hw p (List.mem_append_left _ hp), rfl⟩
  have h₂ := summarize_eq_ok_iff.2 ⟨fun p hp => hw p (List.mem_append_right _ hp), rfl⟩
  exact ⟨_, _, h₁, h₂, by rw [total_append, List.map_append]⟩

theorem summarize_constant {expression : String} {terms : List Term} {k : ConstantTerm}
    (hread : readTerms expression = .ok terms) (hk : Term.constant k ∈ terms) :
    summarize [.constant k] = .ok ⟨k.signedValue, [k.text]⟩ := by
  obtain ⟨d, -, rfl⟩ := readTerms_eq_ok_iff.1 hread
  have hnumbers : (Part.constant k).textNumbers = (Term.constant k).textNumbers := rfl
  refine summarize_eq_ok_iff.2 ⟨fun p hp => ?_, ?_⟩
  · rw [List.mem_singleton.1 hp, hnumbers]
    exact Sentence.writable_textNumbers hk
  · show _ = (⟨k.signedValue + 0, [k.text]⟩ : Outcome)
    rw [Int.add_zero]

/-- **Evaluation is compositional.** Two expressions evaluated one after the
other, the second one with the source that the first one left, are the joined
expression evaluated at once: the totals are added, and the parts of the second
one stand after those of the first one. And a constant that an expression has
more than another one, in whatever place, adds its signed value to the total and
its text to the parts in that place. -/
theorem evaluate_joined (o : Options) :
    (∀ {e₁ e₂ : String} {T T₁ T₂ : Trace} {out₁ out₂ : Outcome},
      evaluate o e₁ T = .ok out₁ T₁ → evaluate o e₂ T₁ = .ok out₂ T₂ →
      evaluate o (joined e₁ e₂) T =
        .ok ⟨out₁.total + out₂.total, out₁.parts ++ out₂.parts⟩ T₂) ∧
    ∀ {e e' : String} {ts us : List Term} {k : ConstantTerm} {T T' : Trace} {out : Outcome},
      readTerms e = .ok (ts ++ us) → readTerms e' = .ok (ts ++ .constant k :: us) →
      evaluate o e T = .ok out T' →
      evaluate o e' T = .ok ⟨out.total + k.signedValue,
        out.parts.take ts.length ++ k.text :: out.parts.drop ts.length⟩ T' := by
  constructor
  · intro e₁ e₂ T T₁ T₂ out₁ out₂ h₁ h₂
    obtain ⟨ts, ps, hread₁, hroll₁, hsum₁⟩ := evaluate_eq_ok_iff.1 h₁
    obtain ⟨us, qs, hread₂, hroll₂, hsum₂⟩ := evaluate_eq_ok_iff.1 h₂
    exact evaluate_eq_ok_iff.2 ⟨ts ++ us, ps ++ qs, readTerms_joined hread₁ hread₂,
      rollTerms_append_eq_ok_iff.2 ⟨ps, T₁, qs, hroll₁, hroll₂, rfl⟩,
      summarize_append hsum₁ hsum₂⟩
  · intro e e' ts us k T T' out hread hread' hok
    obtain ⟨terms, parts, hterms, hroll, hsum⟩ := evaluate_eq_ok_iff.1 hok
    obtain rfl := Except.ok.inj (hterms.symm.trans hread)
    obtain ⟨ps, T₁, qs, hps, hqs, rfl⟩ := rollTerms_append_eq_ok_iff.1 hroll
    obtain ⟨out₁, out₂, h₁, h₂, rfl⟩ := exists_summarize_of_append hsum
    have hmem : Term.constant k ∈ ts ++ .constant k :: us :=
      List.mem_append_right ts List.mem_cons_self
    have hk := summarize_constant hread' hmem
    have hqs' : rollTerms o (.constant k :: us) T₁ = .ok (.constant k :: qs) T' :=
      cons_eq_ok_iff.2 ⟨.constant k, T₁, qs, rfl, hqs, rfl⟩
    have hlength : out₁.parts.length = ts.length := by
      obtain ⟨-, rfl⟩ := summarize_eq_ok_iff.1 h₁
      rw [← term_of_rollTerms hps, List.length_map, List.length_map]
    have hsum' := summarize_append h₁ (summarize_append hk h₂)
    have htotal : out₁.total + (k.signedValue + out₂.total) =
        out₁.total + out₂.total + k.signedValue := by omega
    rw [← hlength, List.take_left, List.drop_left, ← htotal]
    exact evaluate_eq_ok_iff.2 ⟨_, ps ++ .constant k :: qs, hread',
      rollTerms_append_eq_ok_iff.2 ⟨ps, T₁, _, hps, hqs', rfl⟩, hsum'⟩

/-- The second expression has a sign of its own, with blanks around it; the
constant is put between the two terms of the first one. -/
theorem evaluate_joined_signed :
    let T : Trace := ⟨.scripted (.ofList [5, 3]), []⟩
    ∃ out₁ out₂ T₁ T₂, evaluate {} "d6+2" T = .ok out₁ T₁ ∧ evaluate {} " - d4" T₁ = .ok out₂ T₂ ∧
      out₁.total = 7 ∧ out₂.total = -3 ∧ T₂.source = .scripted ⟨[3, 5], []⟩ ∧
      evaluate {} "d6+2 - d4" T = .ok ⟨4, out₁.parts ++ out₂.parts⟩ T₂ ∧
      evaluate {} "d6-9+2" T = .ok ⟨-2, out₁.parts.take 1 ++ "-9" :: out₁.parts.drop 1⟩ T₁ := by
  intro T
  let d6 : DiceTerm := ⟨1, 1, 6, 0, by decide, by decide, by decide⟩
  let d4 : DiceTerm := ⟨-1, 1, 4, 0, by decide, by decide, by decide⟩
  let h6 : Hand := { rolls := [5] }
  let h4 : Hand := { rolls := [3] }
  have hread₁ : readTerms "d6+2" = .ok [.dice d6, .constant ⟨1, 2⟩] := by decide +kernel
  have hread₂ : readTerms " - d4" = .ok [.dice d4] := by decide +kernel
  have hread₃ : readTerms "d6-9+2" = .ok [.dice d6, .constant ⟨-1, 9⟩, .constant ⟨1, 2⟩] := by
    decide +kernel
  have hsteps₁ : Modifier.Steps d6 (Options.modifiersFor {} d6) {} [5] h6 :=
    Options.steps_plain rfl rfl
  have hsteps₂ : Modifier.Steps d4 (Options.modifiersFor {} d4) {} [3] h4 :=
    Options.steps_plain rfl rfl
  have hd6 := (Options.rollTerm_consumes hsteps₁ (by decide)).full [] [3]
  have hd4 := (Options.rollTerm_consumes hsteps₂ (by decide)).full [5] []
  have hvalue₆ : h6.value = 5 := Hand.value_of_dropped_nil rfl
  have hvalue₄ : h4.value = 3 := Hand.value_of_dropped_nil rfl
  have hsum₁ : summarize [.dice d6 h6, .constant ⟨1, 2⟩] =
      .ok ⟨7, [Part.text (.dice d6 h6), "+2"]⟩ := by
    refine summarize_eq_ok_iff.2 ⟨fun p hp => ?_, ?_⟩
    · rcases List.mem_cons.1 hp with rfl | hp
      · rw [Part.textNumbers, Hand.textNumbers, hvalue₆]
        decide +kernel
      · obtain rfl := List.mem_singleton.1 hp
        decide +kernel
    · have htotal : [Part.dice d6 h6, .constant ⟨1, 2⟩].map Part.signedValue = [5, 2] := by
        simp [Part.signedValue, hvalue₆, d6, ConstantTerm.signedValue]
      rw [htotal]
      rfl
  have hsum₂ : summarize [.dice d4 h4] = .ok ⟨-3, [Part.text (.dice d4 h4)]⟩ := by
    refine summarize_eq_ok_iff.2 ⟨fun p hp => ?_, ?_⟩
    · obtain rfl := List.mem_singleton.1 hp
      rw [Part.textNumbers, Hand.textNumbers, hvalue₄]
      decide +kernel
    · have htotal : [Part.dice d4 h4].map Part.signedValue = [-3] := by
        simp [Part.signedValue, hvalue₄, d4]
      rw [htotal]
      rfl
  obtain ⟨T₁, hT₁, hok₁⟩ : ∃ T₁, T₁.source = .scripted ⟨[5], [3]⟩ ∧
      evaluate {} "d6+2" T = .ok ⟨7, [Part.text (.dice d6 h6), "+2"]⟩ T₁ :=
    ⟨_, rfl, evaluate_eq_ok_iff.2 ⟨_, _, hread₁, cons_eq_ok_iff.2
      ⟨_, _, _, rollPart_dice.2 ⟨h6, _, hd6, rfl, rfl⟩, rfl, rfl⟩, hsum₁⟩⟩
  obtain ⟨T₂, hT₂, hok₂⟩ : ∃ T₂, T₂.source = .scripted ⟨[3, 5], []⟩ ∧
      evaluate {} " - d4" T₁ = .ok ⟨-3, [Part.text (.dice d4 h4)]⟩ T₂ := by
    have hd4' : Options.rollTerm {} d4 T₁.source = .ok h4 (.scripted ⟨[3, 5], []⟩) := by
      rw [hT₁]
      exact hd4
    exact ⟨_, rfl, evaluate_eq_ok_iff.2 ⟨_, _, hread₂, cons_eq_ok_iff.2
      ⟨_, _, [], rollPart_dice.2 ⟨h4, _, hd4', rfl, rfl⟩, rfl, rfl⟩, hsum₂⟩⟩
  have hwithout : readTerms "d6+2" = .ok ([.dice d6] ++ [.constant ⟨1, 2⟩]) := hread₁
  have hwith : readTerms "d6-9+2" = .ok ([.dice d6] ++ .constant ⟨-1, 9⟩ :: [.constant ⟨1, 2⟩]) :=
    hread₃
  exact ⟨_, _, T₁, T₂, hok₁, hok₂, rfl, rfl, hT₂, (evaluate_joined {}).1 hok₁ hok₂,
    (evaluate_joined {}).2 hwithout hwith hok₁⟩

end DiceRoller
