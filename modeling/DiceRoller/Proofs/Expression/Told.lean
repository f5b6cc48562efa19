/-
# The parts of a result tell the total

Whoever sees only the texts of a result can find out what each part adds to the
total: dice end in an equals sign and what they are worth, which counts with the
sign that the text begins with, and a constant is its own text. `told?` reads a
text so. Tags hold equals signs too, but what stands after the last one is always
the worth, since a number is written without one (`afterLast_append`).

The values told are those that were summed up (`told?_of_form`), so there is one
for each body of the expression and they add up to the total
(`evaluate_told`).

Key definitions: `afterLast`, `told?`.
Key theorems: `Numeral.read_signed`, `told?_of_form`, `evaluate_told`.
-/
import DiceRoller.Proofs.Expression.Grammar
import DiceRoller.Proofs.Hand.Unambiguous

namespace DiceRoller

/-! ### Reading the text of a part -/

/-- What stands after the last separator; everything if there is none. -/
def afterLast (sep : Char) (s : List Char) : List Char := (s.reverse.takeWhile (· != sep)).reverse

theorem afterLast_append {sep : Char} {back : List Char} (h : sep ∉ back) (front : List Char) :
    afterLast sep (front ++ sep :: back) = back := by
  have hback : ∀ c ∈ back.reverse, (c != sep) = true := by
    intro c hc
    rw [bne_iff_ne]
    rintro rfl
    exact h (List.mem_reverse.1 hc)
  rw [afterLast, List.reverse_append, List.reverse_cons, List.append_assoc,
    List.takeWhile_append_of_pos hback, List.singleton_append,
    List.takeWhile_cons_of_neg (by simp), List.append_nil, List.reverse_reverse]

/-- The value that the text of a part tells: the number after the last equals
sign, negated if the text begins with a minus; without an equals sign the text
itself. -/
def told? (text : String) : Option Int :=
  let s := text.toList
  if '=' ∈ s then
    (Numeral.read? (afterLast '=' s)).map fun n => if s.head? = some '-' then -n else n
  else Numeral.read? s

namespace Numeral

theorem isPadding_char (s : Sign) : isPadding s.char = false := by cases s <;> rfl

theorem read_signed {n : Nat} (s : Sign) (hn : writable n = true) :
    read (s.char :: (toString n).toList) = .ok (s.factor * n) := by
  have hpadding : ∀ c ∈ s.char :: (toString n).toList, isPadding c = false := by
    intro c hc
    rcases List.mem_cons.1 hc with rfl | hc
    · exact isPadding_char s
    · exact isPadding_eq_false (.inr (isDigit_of_mem_toString hc))
  rw [read, trimBy_of_not_padding hpadding]
  cases s with
  | plus =>
    simp only [Sign.char, readUnsigned_toString hn, Sign.factor, Int.one_mul]
    rfl
  | minus =>
    simp only [Sign.char, readUnsigned_toString hn, Sign.factor, Int.neg_mul, Int.one_mul]
    rfl

end Numeral

/-! ### What the parts tell -/

theorem told?_constant {n : Nat} (s : Sign) (hn : Numeral.writable n = true) :
    told? (ConstantTerm.text ⟨s.factor, n⟩) = some (s.factor * n) := by
  have htext : (ConstantTerm.text ⟨s.factor, n⟩).toList = s.char :: (toString n).toList := by
    rw [ConstantTerm.toList_text, signChar_factor]
    rfl
  have heq : '=' ∉ s.char :: (toString n).toList := by
    refine List.not_mem_cons_of_ne_of_not_mem ?_ (not_mem_toString_nat (by decide) n)
    cases s <;> decide
  simp only [told?]
  rw [htext, if_neg heq, Numeral.read?, Numeral.read_signed s hn]
  rfl

/-- Whatever was rolled and noted, dice tell their worth with their sign. -/
theorem told?_dice {t : DiceTerm} {s : Sign} {h : Hand} (hs : t.sign = s.factor)
    (hw : Numeral.writable h.value = true) : told? (h.text t.text) = some (s.factor * h.value) := by
  have hvalue : '=' ∉ (toString h.value).toList := not_mem_toString (by decide) (by decide) _
  obtain ⟨front, htext⟩ : ∃ front, (h.text t.text).toList =
      s.char :: front ++ '=' :: (toString h.value).toList := by
    have hbracket : "]=".toList = [']', '='] := rfl
    refine ⟨t.spelling.chars ++ (String.join (h.tags.map fun t => " " ++ t.2)).toList
      ++ " [".toList ++ h.annotated.toList ++ [']'], ?_⟩
    simp [Hand.text, Hand.heading, DiceTerm.toList_text, hs, signChar_factor, hbracket]
  have hmem : '=' ∈ s.char :: front ++ '=' :: (toString h.value).toList :=
    List.mem_append_right _ List.mem_cons_self
  simp only [told?]
  rw [htext, if_pos hmem, afterLast_append hvalue, Numeral.read?_toString hw]
  cases s <;> simp [Sign.char, Sign.factor]

/-- The part of a term that was written in an expression tells its value. -/
theorem told?_of_form {f : Form} {s : Sign} {p : Part} (hp : p.term = f.term s)
    (hw : p.textNumbers.all Numeral.writable = true) : told? p.text = some p.signedValue := by
  have hsign : p.term.sign = s.factor := by rw [hp, f.sign_term]
  cases p with
  | constant t =>
    cases f with
    | constant value =>
      obtain rfl : t = ⟨s.factor, value.value⟩ := Term.constant.inj hp
      exact told?_constant s (by simpa [Part.textNumbers, ConstantTerm.textNumbers] using hw)
    | _ => cases hp
  | dice t h =>
    have hvalue : Numeral.writable h.value = true :=
      List.all_eq_true.1 hw _ (by simp [Part.textNumbers, Hand.textNumbers])
    have hdice : t.sign = s.factor := hsign
    rw [Part.text, told?_dice hdice hvalue, Part.signedValue, hdice]

/-! ### The whole result -/

theorem length_of_readTokens {sign : Sign} {tokens : List Token} {terms : List Term}
    (h : readTokens sign tokens = .ok terms) : terms.length = tokens.countP (!·.isSign) := by
  induction tokens generalizing sign terms with
  | nil =>
    cases h
    rfl
  | cons token rest ih =>
    cases token with
    | sign s => rw [ih h, List.countP_cons_of_neg (by simp [Token.isSign])]
    | body b =>
      obtain ⟨term, -, h₁⟩ := exceptBind_eq_ok_iff.1 h
      obtain ⟨terms, hterms, h₂⟩ := exceptBind_eq_ok_iff.1 h₁
      obtain rfl := Except.ok.inj h₂
      rw [List.length_cons, ih hterms, List.countP_cons_of_pos (by simp [Token.isSign])]

theorem length_of_readTerms {expression : String} {terms : List Term}
    (h : readTerms expression = .ok terms) :
    terms.length = (Token.scan expression.toList).countP (!·.isSign) := by
  obtain ⟨d, hchars, rfl⟩ := readTerms_eq_ok_iff.1 h
  rw [← Token.scan_remove, ← hchars, d.scan_chars]
  exact length_of_readTokens d.readTokens_tokens

/-- The texts of a result are one for each body of the expression, and the
values that they tell add up to the total. -/
theorem evaluate_told {o : Options} {expression : String} {T T' : Trace} {out : Outcome}
    (hok : evaluate o expression T = .ok out T') :
    out.parts.length = (Token.scan expression.toList).countP (!·.isSign) ∧
      ∃ values : List Int, out.parts.map told? = values.map some ∧ values.sum = out.total := by
  obtain ⟨terms, parts, hread, hroll, hsum⟩ := evaluate_eq_ok_iff.1 hok
  obtain ⟨hw, rfl⟩ := summarize_eq_ok_iff.1 hsum
  have hterms : parts.map Part.term = terms := term_of_rollTerms hroll
  refine ⟨?_, parts.map Part.signedValue, ?_, rfl⟩
  · rw [← length_of_readTerms hread, ← hterms, List.length_map, List.length_map]
  · rw [List.map_map, List.map_map]
    refine List.map_congr_left fun p hp => ?_
    obtain ⟨d, -, rfl⟩ := readTerms_eq_ok_iff.1 hread
    obtain ⟨f, s, hf⟩ := Sentence.exists_form_of_mem (hterms ▸ List.mem_map_of_mem hp)
    exact told?_of_form hf.symm (hw p hp)

/-- The tag of the reroll has an equals sign of its own, and the dice count
negatively. -/
theorem evaluate_told_reroll :
    let o : Options := { dropLowest := some ⟨1⟩, reroll := some ⟨1⟩ }
    ∃ out T', evaluate o "3 - 2d6" ⟨.scripted (.ofList [1, 4, 2]), []⟩ = .ok out T' ∧
      out = ⟨-1, ["+3", "-2d6 DL1 rr<=1 x1 [(2),4]=4"]⟩ ∧
      out.parts.length = (Token.scan "3 - 2d6".toList).countP (!·.isSign) ∧
      ∃ values : List Int, out.parts.map told? = values.map some ∧ values.sum = -1 := by
  intro o
  let t : DiceTerm := ⟨-1, 2, 6, 0, by decide, by decide, by decide⟩
  let rerolled : Hand := ⟨[2, 4], [], [], 1, 0, [(3, "rr<=1 x1")]⟩
  let h : Hand := ⟨[2, 4], [], [2], 1, 0, [(1, "DL1"), (3, "rr<=1 x1")]⟩
  have hread : readTerms "3 - 2d6" = .ok [.constant ⟨1, 3⟩, .dice t] := by decide +kernel
  have hsteps : Modifier.Steps t (o.modifiersFor t) {} [1, 4, 2] h := by
    have hroll : Modifier.Step t .roll {} [1, 4] { rolls := [1, 4] } := .roll rfl
    have hreroll : Modifier.Step t (.reroll (.number 1)) { rolls := [1, 4] } [2] rerolled := by
      have htag : rerolled = Hand.tag ⟨[2, 4], [], [], 1, 0, []⟩ 3
          ("rr<=" ++ (Datum.number 1).plain ++ " x" ++ toString 1) := by
        decide +kernel
      rw [htag]
      exact .reroll (.again rfl (.stay rfl .nil)) (.tagged (by decide) (by decide +kernel))
    have hdrop : Modifier.Step t (.drop .lowest (.number 1)) rerolled [] h := by
      have hselected : rerolled.selected 1 false = [2] := by
        have hsorted : Hand.sorted false [2, 4] = [2, 4] := List.mergeSort_of_pairwise (by decide)
        rw [Hand.selected, Hand.kept_eq]
        show (Hand.sorted false [2, 4]).take 1 = [2]
        rw [hsorted]
        rfl
      have htag : h = (rerolled.drop 1 false).tag 1 ("DL" ++ (Datum.number 1).plain) := by
        rw [Hand.drop, hselected]
        decide +kernel
      rw [htag]
      exact .dropTagged rfl rfl (by decide +kernel)
    rw [Options.modifiersFor_eq]
    exact .cons hroll (.cons hreroll (.cons hdrop .nil))
  have hterm := (Options.rollTerm_consumes hsteps (by decide)).full [] []
  have hvalue : h.value = 4 := by
    rw [Hand.value, Hand.kept_eq]
    rfl
  have hannotated : h.annotated = "(2),4" := by
    rw [Hand.annotated, Hand.marked_eq]
    show ",".intercalate ((Hand.mark [2, 4] [2]).map Hand.entry) = "(2),4"
    decide +kernel
  have hpart : (Part.dice t h).text = "-2d6 DL1 rr<=1 x1 [(2),4]=4" := by
    rw [Part.text, Hand.text, hannotated, hvalue]
    decide +kernel
  have hsum : summarize [.constant ⟨1, 3⟩, .dice t h] =
      .ok ⟨-1, ["+3", "-2d6 DL1 rr<=1 x1 [(2),4]=4"]⟩ := by
    refine summarize_eq_ok_iff.2 ⟨fun p hp => ?_, ?_⟩
    · rcases List.mem_cons.1 hp with rfl | hp
      · decide +kernel
      · obtain rfl := List.mem_singleton.1 hp
        rw [Part.textNumbers, Hand.textNumbers, hvalue]
        decide +kernel
    · simp only [List.map_cons, List.map_nil, hpart, Part.signedValue, hvalue]
      rfl
  have hok : evaluate o "3 - 2d6" ⟨.scripted (.ofList [1, 4, 2]), []⟩ = .ok _ _ :=
    evaluate_eq_ok_iff.2 ⟨_, _, hread, cons_eq_ok_iff.2 ⟨_, _, _, rfl, cons_eq_ok_iff.2
      ⟨_, _, _, rollPart_dice.2 ⟨h, _, hterm, rfl, rfl⟩, rfl, rfl⟩, rfl⟩, hsum⟩
  exact ⟨_, _, hok, rfl, evaluate_told hok⟩

end DiceRoller
