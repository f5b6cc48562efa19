/-
# The grammar of a term

A term is written in one of five forms:

    d%        a die with a hundred sides
    NdMdlK    N dice with M sides, without the K lowest
    NdM       N dice with M sides
    dM        one die with M sides
    K         a constant

The letters are in either case; N, M and K are runs of at most `digitLimit`
digits, with 1 ≤ N, 2 ≤ M and, in the second form, K < N. A `Form` holds what is
written and the proofs that it is in order, so each one denotes a term, and a
text is written in at most one form (`Form.chars_injective`). Reading a body
finds exactly the terms of the forms in which it is written
(`Term.read_eq_ok_iff`).

A run of digits that is not too long to be read denotes a number that may be
written (`DigitRun.writable_value`), so what is written in a form can be written
again (`Form.writable_textNumbers`).

Key definitions: `DigitRun`, `Form`, `Form.chars`, `Form.term`, `Form.spelling`.
Key theorems: `Form.chars_injective`, `Term.read_eq_ok_iff`,
`DigitRun.writable_value`, `Form.writable_textNumbers`.
-/
import DiceRoller.Expression.Token
import DiceRoller.Proofs.Steps
import DiceRoller.Proofs.Term.Spelt
import DiceRoller.Proofs.Text.Lowered
import DiceRoller.Proofs.Text.Writable
import DiceRoller.Term.Reader
import Mathlib.Algebra.GroupWithZero.Nat

namespace DiceRoller

/-! ### What terms are written with -/

/-- A run of digits that is not too long to be read. -/
structure DigitRun where
  chars : List Char
  isRun : IsRun chars
  length_le : chars.length ≤ Numeral.digitLimit

/-- The number that the run denotes. -/
def DigitRun.value (r : DigitRun) : Nat := Nat.ofDigitChars 10 r.chars 0

@[ext] theorem DigitRun.ext {r r' : DigitRun} (h : r.chars = r'.chars) : r = r' := by
  cases r
  cases r'
  cases h
  rfl

/-- The letter `d` in either case. -/
abbrev LetterD := { c : Char // c = 'd' ∨ c = 'D' }

/-- The letter `l` in either case. -/
abbrev LetterL := { c : Char // c = 'l' ∨ c = 'L' }

/-- A term as it is written, without its sign. -/
inductive Form where
  | percentile (d : LetterD)
  | dropDice (number : DigitRun) (d : LetterD) (sides : DigitRun) (d' : LetterD) (l : LetterL)
      (drop : DigitRun) (one_le : 1 ≤ number.value) (two_le : 2 ≤ sides.value)
      (lt : drop.value < number.value)
  | dice (number : DigitRun) (d : LetterD) (sides : DigitRun) (one_le : 1 ≤ number.value)
      (two_le : 2 ≤ sides.value)
  | singleDie (d : LetterD) (sides : DigitRun) (two_le : 2 ≤ sides.value)
  | constant (value : DigitRun)

namespace Form

/-- The text of the form. -/
def chars : Form → List Char
  | percentile d => [d.1, '%']
  | dropDice number d sides d' l drop _ _ _ =>
    number.chars ++ d.1 :: sides.chars ++ d'.1 :: l.1 :: drop.chars
  | dice number d sides _ _ => number.chars ++ d.1 :: sides.chars
  | singleDie d sides _ => d.1 :: sides.chars
  | constant value => value.chars

/-- The term that is written, with the sign in front of it. -/
def term (sign : Sign) : Form → Term
  | percentile _ => .dice ⟨sign.factor, 1, 100, 0, by decide, by decide, by decide⟩
  | dropDice number _ sides _ _ drop one_le two_le lt =>
    .dice ⟨sign.factor, number.value, sides.value, drop.value, one_le, two_le, lt⟩
  | dice number _ sides one_le two_le =>
    .dice ⟨sign.factor, number.value, sides.value, 0, one_le, two_le, one_le⟩
  | singleDie _ sides two_le =>
    .dice ⟨sign.factor, 1, sides.value, 0, by decide, two_le, by decide⟩
  | constant value => .constant ⟨sign.factor, value.value⟩

/-- The spelling of the form, in which the case of the letters is lost. -/
def spelling : Form → Spelling
  | percentile _ => .percentile
  | dropDice number _ sides _ _ drop _ _ _ => .dropDice number.chars sides.chars drop.chars
  | dice number _ sides _ _ => .dice number.chars sides.chars
  | singleDie _ sides _ => .singleDie sides.chars
  | constant value => .constant value.chars

theorem proper_spelling (f : Form) : f.spelling.Proper := by
  cases f with
  | percentile d => exact nofun
  | dropDice number d sides d' l drop =>
    exact Spelling.proper_dropDice number.isRun sides.isRun drop.isRun
  | dice number d sides => exact Spelling.proper_dice number.isRun sides.isRun
  | singleDie d sides => exact Spelling.proper_singleDie sides.isRun
  | constant value => exact Spelling.proper_constant value.isRun

theorem map_toLower_run (r : DigitRun) : r.chars.map Char.toLower = r.chars :=
  (map_toLower_eq_run_iff r.isRun.isDigit).2 rfl

theorem map_toLower_chars (f : Form) : f.chars.map Char.toLower = f.spelling.chars := by
  have hd : ∀ d : LetterD, d.1.toLower = 'd' := fun d => toLower_eq_d_iff.2 d.2
  have hl : ∀ l : LetterL, l.1.toLower = 'l' := fun l => toLower_eq_l_iff.2 l.2
  cases f with
  | percentile d => simp [chars, spelling, Spelling.chars, hd]
  | dropDice number d sides d' l drop =>
    simp [chars, spelling, Spelling.chars, hd, hl, map_toLower_run]
  | dice number d sides => simp [chars, spelling, Spelling.chars, hd, map_toLower_run]
  | singleDie d sides => simp [chars, spelling, Spelling.chars, hd, map_toLower_run]
  | constant value => simp [chars, spelling, Spelling.chars, map_toLower_run]

/-- A text is written in at most one form. -/
theorem chars_injective {f g : Form} (h : f.chars = g.chars) : f = g := by
  have hspell : f.spelling = g.spelling := by
    have hread : some f.spelling = some g.spelling := by
      rw [← Spelling.read?_chars f.proper_spelling, ← Spelling.read?_chars g.proper_spelling,
        ← map_toLower_chars, ← map_toLower_chars, h]
    exact Option.some.inj hread
  cases f with
  | percentile d =>
    cases g with
    | percentile e =>
      obtain rfl : d = e := Subtype.ext (List.cons.inj h).1
      rfl
    | _ => cases hspell
  | dropDice number d sides d' l drop =>
    cases g with
    | dropDice number₂ e sides₂ e' l₂ drop₂ =>
      obtain ⟨hn, hs, hk⟩ := Spelling.dropDice.inj hspell
      obtain rfl := DigitRun.ext hn
      obtain rfl := DigitRun.ext hs
      obtain rfl := DigitRun.ext hk
      simp only [chars, List.append_assoc, List.cons_append, List.append_cancel_left_eq,
        List.cons.injEq] at h
      obtain ⟨hd, hd', hl, -⟩ := h
      obtain rfl := Subtype.ext hd
      obtain rfl := Subtype.ext hd'
      obtain rfl := Subtype.ext hl
      rfl
    | _ => cases hspell
  | dice number d sides =>
    cases g with
    | dice number₂ e sides₂ =>
      obtain ⟨hn, hs⟩ := Spelling.dice.inj hspell
      obtain rfl := DigitRun.ext hn
      obtain rfl := DigitRun.ext hs
      obtain rfl : d = e := Subtype.ext (List.cons.inj (List.append_cancel_left h)).1
      rfl
    | _ => cases hspell
  | singleDie d sides =>
    cases g with
    | singleDie e sides₂ =>
      obtain rfl := DigitRun.ext (Spelling.singleDie.inj hspell)
      obtain rfl : d = e := Subtype.ext (List.cons.inj h).1
      rfl
    | _ => cases hspell
  | constant value =>
    cases g with
    | constant value₂ =>
      obtain rfl := DigitRun.ext (Spelling.constant.inj hspell)
      rfl
    | _ => cases hspell

/-! ### Forms and spellings -/

theorem ofDigits_eq_ok_iff {digits : List Char} {n : Nat} : Numeral.ofDigits digits = .ok n ↔
    digits.length ≤ Numeral.digitLimit ∧ n = Nat.ofDigitChars 10 digits 0 := by
  unfold Numeral.ofDigits
  split
  · next h =>
    constructor
    · intro hok
      exact ⟨h, (Except.ok.inj hok).symm⟩
    · rintro ⟨-, rfl⟩
      rfl
  · next h =>
    constructor
    · intro hok
      cases hok
    · rintro ⟨hle, -⟩
      exact absurd hle h

theorem ofDigits_run (r : DigitRun) : Numeral.ofDigits r.chars = .ok r.value :=
  ofDigits_eq_ok_iff.2 ⟨r.length_le, rfl⟩

/-- Digits that can be read are a run. -/
theorem exists_run {s : List Char} {n : Nat} (hs : IsRun s) (hn : Numeral.ofDigits s = .ok n) :
    ∃ r : DigitRun, r.chars = s ∧ r.value = n := by
  obtain ⟨hle, rfl⟩ := ofDigits_eq_ok_iff.1 hn
  exact ⟨⟨s, hs, hle⟩, rfl, rfl⟩

/-- The spelling of a form is that of its term. -/
theorem term_spelling (sign : Sign) (f : Form) : f.spelling.term sign = .ok (f.term sign) := by
  have hmake : ∀ t : DiceTerm, DiceTerm.make t.sign t.number t.sides t.drop = .ok t :=
    fun t => DiceTerm.make_eq_ok_iff.2 ⟨rfl, rfl, rfl, rfl⟩
  cases f with
  | percentile d =>
    cases sign <;> rfl
  | dropDice number d sides d' l drop h1 h2 h3 =>
    have hm := hmake ⟨sign.factor, number.value, sides.value, drop.value, h1, h2, h3⟩
    simp only [spelling, Spelling.term, exceptBind_of_ok (ofDigits_run _), exceptBind_of_ok hm]
    rfl
  | dice number d sides h1 h2 =>
    have hm := hmake ⟨sign.factor, number.value, sides.value, 0, h1, h2, h1⟩
    rw [spelling, Spelling.term, exceptBind_of_ok (ofDigits_run _),
      exceptBind_of_ok (ofDigits_run _)]
    exact exceptBind_of_ok hm
  | singleDie d sides h2 =>
    have hm := hmake ⟨sign.factor, 1, sides.value, 0, by decide, h2, by decide⟩
    rw [spelling, Spelling.term, exceptBind_of_ok (ofDigits_run _)]
    exact exceptBind_of_ok hm
  | constant value =>
    rw [spelling, Spelling.term, exceptBind_of_ok (ofDigits_run _)]
    rfl

theorem bounds_of_make {sign : Int} {n m k : Nat} {t : DiceTerm}
    (h : DiceTerm.make sign n m k = .ok t) : 1 ≤ n ∧ 2 ≤ m ∧ k < n := by
  obtain ⟨-, hn, hm, hk⟩ := DiceTerm.make_eq_ok_iff.1 h
  have h1 := t.one_le_number
  have h2 := t.two_le_sides
  have h3 := t.drop_lt_number
  omega

/-- A body that is lowered to the spelling of a term is written in a form. -/
theorem exists_form {sign : Sign} {sp : Spelling} {body : List Char} {t : Term} (hp : sp.Proper)
    (hbody : body.map Char.toLower = sp.chars) (hterm : sp.term sign = .ok t) :
    ∃ f : Form, f.chars = body ∧ f.term sign = t := by
  cases sp with
  | percentile =>
    obtain ⟨d, s₁, rfl, hd, h₁⟩ := List.map_eq_cons_iff.1 hbody
    obtain ⟨c, s₂, rfl, hc, h₂⟩ := List.map_eq_cons_iff.1 h₁
    obtain rfl := List.map_eq_nil_iff.1 h₂
    obtain rfl := toLower_eq_percent_iff.1 hc
    refine ⟨.percentile ⟨d, toLower_eq_d_iff.1 hd⟩, rfl, ?_⟩
    have hf := term_spelling sign (.percentile ⟨d, toLower_eq_d_iff.1 hd⟩)
    exact Except.ok.inj (hf.symm.trans hterm)
  | dropDice number sides drop =>
    have hn : IsRun number := hp _ (by simp [Spelling.groups])
    have hs : IsRun sides := hp _ (by simp [Spelling.groups])
    have hk : IsRun drop := hp _ (by simp [Spelling.groups])
    obtain ⟨b₁, b₂, rfl, hb₁, hb₂⟩ := List.map_eq_append_iff.1 hbody
    obtain ⟨bn, b₃, rfl, hbn, hb₃⟩ := List.map_eq_append_iff.1 hb₁
    obtain ⟨d, bs, rfl, hd, hbs⟩ := List.map_eq_cons_iff.1 hb₃
    obtain ⟨d', b₄, rfl, hd', hb₄⟩ := List.map_eq_cons_iff.1 hb₂
    obtain ⟨l, bk, rfl, hl, hbk⟩ := List.map_eq_cons_iff.1 hb₄
    obtain rfl := (map_toLower_eq_run_iff hn.isDigit).1 hbn
    obtain rfl := (map_toLower_eq_run_iff hs.isDigit).1 hbs
    obtain rfl := (map_toLower_eq_run_iff hk.isDigit).1 hbk
    have hdice := hterm
    obtain ⟨n, hn', h₁⟩ := exceptBind_eq_ok_iff.1 hdice
    obtain ⟨m, hm', h₂⟩ := exceptBind_eq_ok_iff.1 h₁
    obtain ⟨k, hk', h₃⟩ := exceptBind_eq_ok_iff.1 h₂
    obtain ⟨dice, hmake, -⟩ := exceptBind_eq_ok_iff.1 h₃
    obtain ⟨one_le, two_le, lt⟩ := bounds_of_make hmake
    obtain ⟨number, rfl, rfl⟩ := exists_run hn hn'
    obtain ⟨sides, rfl, rfl⟩ := exists_run hs hm'
    obtain ⟨drop, rfl, rfl⟩ := exists_run hk hk'
    have hf := term_spelling sign (.dropDice number ⟨d, toLower_eq_d_iff.1 hd⟩ sides
      ⟨d', toLower_eq_d_iff.1 hd'⟩ ⟨l, toLower_eq_l_iff.1 hl⟩ drop one_le two_le lt)
    exact ⟨_, rfl, Except.ok.inj (hf.symm.trans hterm)⟩
  | dice number sides =>
    have hn : IsRun number := hp _ (by simp [Spelling.groups])
    have hs : IsRun sides := hp _ (by simp [Spelling.groups])
    obtain ⟨bn, b₁, rfl, hbn, hb₁⟩ := List.map_eq_append_iff.1 hbody
    obtain ⟨d, bs, rfl, hd, hbs⟩ := List.map_eq_cons_iff.1 hb₁
    obtain rfl := (map_toLower_eq_run_iff hn.isDigit).1 hbn
    obtain rfl := (map_toLower_eq_run_iff hs.isDigit).1 hbs
    have hdice := hterm
    obtain ⟨n, hn', h₁⟩ := exceptBind_eq_ok_iff.1 hdice
    obtain ⟨m, hm', h₂⟩ := exceptBind_eq_ok_iff.1 h₁
    obtain ⟨dice, hmake, -⟩ := exceptBind_eq_ok_iff.1 h₂
    obtain ⟨one_le, two_le, -⟩ := bounds_of_make (k := 0) hmake
    obtain ⟨number, rfl, rfl⟩ := exists_run hn hn'
    obtain ⟨sides, rfl, rfl⟩ := exists_run hs hm'
    have hf := term_spelling sign
      (.dice number ⟨d, toLower_eq_d_iff.1 hd⟩ sides one_le two_le)
    exact ⟨_, rfl, Except.ok.inj (hf.symm.trans hterm)⟩
  | singleDie sides =>
    have hs : IsRun sides := hp _ (by simp [Spelling.groups])
    obtain ⟨d, bs, rfl, hd, hbs⟩ := List.map_eq_cons_iff.1 hbody
    obtain rfl := (map_toLower_eq_run_iff hs.isDigit).1 hbs
    have hdice := hterm
    obtain ⟨m, hm', h₁⟩ := exceptBind_eq_ok_iff.1 hdice
    obtain ⟨dice, hmake, -⟩ := exceptBind_eq_ok_iff.1 h₁
    obtain ⟨-, two_le, -⟩ := bounds_of_make (n := 1) (k := 0) hmake
    obtain ⟨sides, rfl, rfl⟩ := exists_run hs hm'
    have hf := term_spelling sign (.singleDie ⟨d, toLower_eq_d_iff.1 hd⟩ sides two_le)
    exact ⟨_, rfl, Except.ok.inj (hf.symm.trans hterm)⟩
  | constant value =>
    have hv : IsRun value := hp _ (by simp [Spelling.groups])
    obtain rfl := (map_toLower_eq_run_iff hv.isDigit).1 hbody
    have hconstant := hterm
    obtain ⟨k, hk', -⟩ := exceptBind_eq_ok_iff.1 hconstant
    obtain ⟨value, rfl, rfl⟩ := exists_run hv hk'
    have hf := term_spelling sign (.constant value)
    exact ⟨_, rfl, Except.ok.inj (hf.symm.trans hterm)⟩

end Form

/-! ### Reading a body -/

theorem Spelling.isAlphabet_of_mem {sp : Spelling} (hp : sp.Proper) :
    ∀ c ∈ sp.chars, isAlphabet c = true := by
  have hrun : ∀ g ∈ sp.groups, ∀ c ∈ g, isAlphabet c = true := by
    intro g hg c hc
    rw [isAlphabet, (hp g hg).isDigit c hc]
    rfl
  intro c hc
  cases sp <;>
    simp only [chars, groups, List.mem_append, List.mem_cons, List.not_mem_nil, or_false,
      forall_eq_or_imp, forall_eq] at hc hrun <;>
    grind [isAlphabet]

theorem Spelling.chars_ne_nil {sp : Spelling} (hp : sp.Proper) : sp.chars ≠ [] := by
  cases sp with
  | constant value => exact (hp value (List.mem_singleton.2 rfl)).ne_nil
  | _ => simp [chars]

namespace Term

theorem read_sign_cons {sign : Sign} {body : List Char} (hb : Blank.remove body = body) :
    read (sign.char :: body) = readBody sign (Lower.textAfter [sign.char] body) := by
  have hlower : Lower.text (sign.char :: body) =
      sign.char :: Lower.textAfter [sign.char] body := by
    cases sign <;> rfl
  rw [read, Blank.remove_cons_of_not_blank (Token.isBlank_char sign), hb, hlower, splitSign,
    Sign.ofChar?_char]

theorem readBody_eq_ok_iff {sign : Sign} {low : List Char} {t : Term} :
    readBody sign low = .ok t ↔
      ∃ sp : Spelling, sp.Proper ∧ sp.chars = low ∧ sp.term sign = .ok t := by
  unfold readBody
  by_cases hlow : low = []
  · rw [if_pos hlow]
    constructor
    · intro h
      cases h
    · rintro ⟨sp, hp, hchars, -⟩
      exact absurd (hchars.trans hlow) (Spelling.chars_ne_nil hp)
  · rw [if_neg hlow]
    constructor
    · intro h
      cases hread : Spelling.read? low with
      | none =>
        rw [hread] at h
        cases h
      | some sp =>
        rw [hread] at h
        obtain ⟨hp, hchars⟩ := Spelling.read?_eq_some_iff.1 hread
        exact ⟨sp, hp, hchars, h⟩
    · rintro ⟨sp, hp, hchars, hterm⟩
      rw [Spelling.read?_eq_some_iff.2 ⟨hp, hchars⟩]
      exact hterm

/-- A body is read exactly if it is written in a form, as the term of that. -/
theorem read_eq_ok_iff {sign : Sign} {body : List Char} {t : Term}
    (hb : Blank.remove body = body) : read (sign.char :: body) = .ok t ↔
      ∃ f : Form, f.chars = body ∧ f.term sign = t := by
  rw [read_sign_cons hb, readBody_eq_ok_iff]
  constructor
  · rintro ⟨sp, hp, hlow, hterm⟩
    have hmap := (Lower.textAfter_eq_iff (Spelling.isAlphabet_of_mem hp) _ _).1 hlow.symm
    exact Form.exists_form hp hmap hterm
  · rintro ⟨f, rfl, rfl⟩
    refine ⟨f.spelling, f.proper_spelling, ?_, f.term_spelling sign⟩
    exact ((Lower.textAfter_eq_iff (Spelling.isAlphabet_of_mem f.proper_spelling) _ _).2
      f.map_toLower_chars).symm

end Term

/-! ### Numbers that are read -/

/-- A run of digits denotes less than a one with as many zeros. -/
theorem ofDigitChars_lt {ds : List Char} (hds : ∀ c ∈ ds, c.isDigit = true) :
    Nat.ofDigitChars 10 ds 0 < 10 ^ ds.length := by
  induction ds with
  | nil => exact Nat.one_pos
  | cons c ds ih =>
    have hc := (isDigit_iff.1 (hds c List.mem_cons_self)).2
    have hrest := ih fun d hd => hds d (List.mem_cons_of_mem _ hd)
    have hdigit : c.toNat - '0'.toNat ≤ 9 := by
      show c.toNat - 48 ≤ 9
      omega
    have hmul : 10 ^ ds.length * (c.toNat - '0'.toNat) ≤ 10 ^ ds.length * 9 :=
      Nat.mul_le_mul_left _ hdigit
    rw [Nat.ofDigitChars_cons, Nat.mul_zero, Nat.zero_add, Nat.ofDigitChars_eq_ofDigitChars_zero,
      List.length_cons, Nat.pow_succ]
    omega

theorem DigitRun.value_lt (r : DigitRun) {limit : Nat} (hle : r.chars.length ≤ limit) :
    r.value < Nat.pow 10 limit :=
  Nat.lt_of_lt_of_le (ofDigitChars_lt r.isRun.isDigit) (Nat.pow_le_pow_right (by decide) hle)

/-- A number that can be read can be written. -/
theorem DigitRun.writable_value (r : DigitRun) : Numeral.writable r.value = true := by
  rw [Numeral.writable, decide_eq_true_eq, Int.natAbs_natCast]
  exact r.value_lt r.length_le

/-- What is written in an expression can be written again. -/
theorem Form.writable_textNumbers (f : Form) (sign : Sign) :
    (f.term sign).textNumbers.all Numeral.writable = true := by
  have hone : Numeral.writable (1 : Nat) = true := writable_of_lt (by decide)
  have hhundred : Numeral.writable (100 : Nat) = true := writable_of_lt (by decide)
  have hdice : ∀ {n m k : Nat}, Numeral.writable n = true → Numeral.writable m = true →
      Numeral.writable k = true → [(n : Int), (m : Int), (k : Int)].all Numeral.writable = true := by
    intro n m k hn hm hk
    rw [List.all_cons, hn, List.all_cons, hm, Bool.true_and, Bool.true_and]
    exact all_writable_singleton hk
  cases f with
  | percentile d => exact hdice hone hhundred writable_zero
  | dropDice number d sides d' l drop =>
    exact hdice number.writable_value sides.writable_value drop.writable_value
  | dice number d sides => exact hdice number.writable_value sides.writable_value writable_zero
  | singleDie d sides => exact hdice hone sides.writable_value writable_zero
  | constant value => exact all_writable_singleton value.writable_value

/-- The dice that are written in an expression have numbers that may be
written. -/
theorem Form.writable_of_dice {f : Form} {sign : Sign} {t : DiceTerm}
    (h : f.term sign = .dice t) :
    Numeral.writable t.number = true ∧ Numeral.writable t.sides = true := by
  have hall := List.all_eq_true.1 (f.writable_textNumbers sign)
  rw [h] at hall
  exact ⟨hall t.number List.mem_cons_self,
    hall t.sides (List.mem_cons_of_mem _ List.mem_cons_self)⟩

end DiceRoller
