/-
# The grammar of an expression

An expression, apart from its blanks, is a term, perhaps with a sign in front
of it, and any number of further terms with a sign each:

    expr := [sign] term (sign term)*

A `Sentence` is what is so written. Its first term has a plus if no sign is
given, and each other one the sign in front of it. No text is that of two
sentences (`Sentence.chars_injective`), and the terms of an expression can be
read exactly if it is a sentence, and are those of the sentence
(`readTerms_eq_ok_iff`).

Key definitions: `Sentence`, `Sentence.chars`, `Sentence.terms`.
Key theorems: `Sentence.scan_chars`, `Sentence.chars_injective`,
`readTerms_eq_ok_iff`.
-/
import DiceRoller.Proofs.Expression.Reading
import DiceRoller.Proofs.Expression.Tokens
import DiceRoller.Proofs.Term.Form

namespace DiceRoller

/-- An expression as it is written, without its blanks. -/
structure Sentence where
  lead : Option Sign
  first : Form
  rest : List (Sign × Form)

namespace Sentence

/-- The text of the signed terms that come after the first one. -/
def restChars (rest : List (Sign × Form)) : List Char := rest.flatMap fun p => p.1.char :: p.2.chars

/-- The text of the sentence. -/
def chars (d : Sentence) : List Char :=
  (d.lead.map Sign.char).toList ++ d.first.chars ++ restChars d.rest

/-- The terms that are written, in order. -/
def terms (d : Sentence) : List Term :=
  d.first.term (d.lead.getD .plus) :: d.rest.map fun p => p.2.term p.1

/-- Each term is written in a form, with a sign. -/
theorem exists_form_of_mem {d : Sentence} {t : Term} (h : t ∈ d.terms) :
    ∃ (f : Form) (s : Sign), f.term s = t := by
  rcases List.mem_cons.1 h with rfl | h
  · exact ⟨d.first, d.lead.getD .plus, rfl⟩
  · obtain ⟨p, -, rfl⟩ := List.mem_map.1 h
    exact ⟨p.2, p.1, rfl⟩

/-- The tokens of the signed terms that come after the first one. -/
def restTokens (rest : List (Sign × Form)) : List Token :=
  rest.flatMap fun p => [.sign p.1, .body p.2.chars]

/-- The tokens of the sentence. -/
def tokens (d : Sentence) : List Token :=
  (d.lead.map Token.sign).toList ++ .body d.first.chars :: restTokens d.rest

end Sentence

/-! ### The characters of a form -/

/-- Whatever terms are spelt with is neither a sign nor blank. -/
theorem Token.isBodyChar_of_isAlphabet {c : Char} (h : Spelling.isAlphabet c.toLower = true) :
    Token.IsBodyChar c := by
  have hrange : 37 = c.toNat ∨ (48 ≤ c.toNat ∧ c.toNat < 128) := by
    simp only [Spelling.isAlphabet, isDigit_iff, Bool.or_eq_true, beq_iff_eq, ← Char.toNat_inj,
      toNat_toLower] at h
    have h100 : 'd'.toNat = 100 := rfl
    have h108 : 'l'.toNat = 108 := rfl
    have h37 : '%'.toNat = 37 := rfl
    rw [h100, h108, h37] at h
    split at h <;> omega
  constructor
  · have hplus : c ≠ '+' := by
      rintro rfl
      exact absurd hrange (by decide)
    have hminus : c ≠ '-' := by
      rintro rfl
      exact absurd hrange (by decide)
    rw [Sign.ofChar?, if_neg hplus, if_neg hminus]
  · rw [Blank.isBlank, List.any_eq_false]
    intro r hr
    simp only [Blank.ranges, List.mem_cons, List.not_mem_nil, or_false] at hr
    simp only [Bool.and_eq_true, decide_eq_true_eq, not_and]
    rcases hr with rfl | rfl | rfl | rfl | rfl | rfl | rfl | rfl | rfl | rfl <;>
      simp only <;> omega

theorem Token.isBodyChar_of_isDigit {c : Char} (h : c.isDigit = true) : Token.IsBodyChar c := by
  refine isBodyChar_of_isAlphabet ?_
  rw [(toLower_eq_digit_iff h).2 rfl, Spelling.isAlphabet, h]
  rfl

namespace Form

theorem sign_term (f : Form) (s : Sign) : (f.term s).sign = s.factor := by
  cases f <;> rfl

theorem chars_ne_nil (f : Form) : f.chars ≠ [] := by
  intro h
  have hs := f.map_toLower_chars
  rw [h] at hs
  exact Spelling.chars_ne_nil f.proper_spelling hs.symm

/-- A form is written without signs and blanks. -/
theorem isBodyChar_of_mem (f : Form) {c : Char} (hc : c ∈ f.chars) : Token.IsBodyChar c := by
  have hmem : c.toLower ∈ f.spelling.chars := by
    rw [← f.map_toLower_chars]
    exact List.mem_map_of_mem hc
  exact Token.isBodyChar_of_isAlphabet (Spelling.isAlphabet_of_mem f.proper_spelling _ hmem)

end Form

/-! ### The tokens of a sentence -/

namespace Sentence

theorem scan_restChars_ne (rest : List (Sign × Form)) (b : List Char) (ts : List Token) :
    Token.scan (restChars rest) ≠ .body b :: ts := by
  cases rest with
  | nil => exact nofun
  | cons p rest =>
    rw [restChars, List.flatMap_cons, List.cons_append, Token.scan_sign]
    exact nofun

/-- A form is cut off where a sign follows it. -/
theorem scan_form (f : Form) (rest : List (Sign × Form)) :
    Token.scan (f.chars ++ restChars rest) = .body f.chars :: Token.scan (restChars rest) :=
  Token.scan_append (fun _ hc => f.isBodyChar_of_mem hc) f.chars_ne_nil (scan_restChars_ne rest)

theorem scan_restChars (rest : List (Sign × Form)) :
    Token.scan (restChars rest) = restTokens rest := by
  induction rest with
  | nil => rfl
  | cons p rest ih =>
    have hcons : restChars (p :: rest) = p.1.char :: (p.2.chars ++ restChars rest) := rfl
    rw [hcons, Token.scan_sign, scan_form, ih]
    rfl

/-- A sentence is cut into its tokens. -/
theorem scan_chars (d : Sentence) : Token.scan d.chars = d.tokens := by
  obtain ⟨lead, first, rest⟩ := d
  cases lead with
  | none =>
    have hchars : chars ⟨none, first, rest⟩ = first.chars ++ restChars rest := rfl
    rw [hchars, scan_form, scan_restChars]
    rfl
  | some s =>
    have hchars : chars ⟨some s, first, rest⟩ = s.char :: (first.chars ++ restChars rest) := rfl
    rw [hchars, Token.scan_sign, scan_form, scan_restChars]
    rfl

theorem tail_restTokens (rest : List (Sign × Form)) : Token.Tail (restTokens rest) := by
  induction rest with
  | nil => exact .nil
  | cons p rest ih => exact .cons ih

theorem inOrder_tokens (d : Sentence) : Token.InOrder d.tokens := by
  obtain ⟨lead, first, rest⟩ := d
  cases lead with
  | none => exact .unsigned (tail_restTokens rest)
  | some s => exact .signed (tail_restTokens rest)

theorem restTokens_injective {rest rest' : List (Sign × Form)}
    (h : restTokens rest = restTokens rest') : rest = rest' := by
  induction rest generalizing rest' with
  | nil =>
    cases rest' with
    | nil => rfl
    | cons p' rest' => cases h
  | cons p rest ih =>
    cases rest' with
    | nil => cases h
    | cons p' rest' =>
      have hcons : Token.sign p.1 :: Token.body p.2.chars :: restTokens rest =
        Token.sign p'.1 :: Token.body p'.2.chars :: restTokens rest' := h
      obtain ⟨hsign, htail⟩ := List.cons.inj hcons
      obtain ⟨hbody, hrest⟩ := List.cons.inj htail
      have hp : p = p' :=
        Prod.ext (Token.sign.inj hsign) (Form.chars_injective (Token.body.inj hbody))
      rw [hp, ih hrest]

/-- No text is that of two sentences. -/
theorem chars_injective {d d' : Sentence} (h : d.chars = d'.chars) : d = d' := by
  have htokens : d.tokens = d'.tokens := by rw [← scan_chars, ← scan_chars, h]
  obtain ⟨lead, first, rest⟩ := d
  obtain ⟨lead', first', rest'⟩ := d'
  have hbodies : lead = lead' ∧
      Token.body first.chars :: restTokens rest = .body first'.chars :: restTokens rest' := by
    cases lead <;> cases lead'
    · exact ⟨rfl, htokens⟩
    · cases htokens
    · cases htokens
    · obtain ⟨hsign, htail⟩ := List.cons.inj htokens
      exact ⟨congrArg some (Token.sign.inj hsign), htail⟩
  obtain ⟨rfl, hcons⟩ := hbodies
  obtain ⟨hbody, hrest⟩ := List.cons.inj hcons
  rw [Form.chars_injective (Token.body.inj hbody), restTokens_injective hrest]

/-! ### Reading a sentence -/

theorem read_form (sign : Sign) (f : Form) :
    Term.read (sign.char :: f.chars) = .ok (f.term sign) := by
  have hblank : Blank.remove f.chars = f.chars := by
    refine List.filter_eq_self.2 fun c hc => ?_
    rw [(f.isBodyChar_of_mem hc).2]
    rfl
  exact (Term.read_eq_ok_iff hblank).2 ⟨f, rfl, rfl⟩

theorem readTokens_body (sign : Sign) {f : Form} {ts : List Token} {terms : List Term}
    (h : readTokens .plus ts = .ok terms) :
    readTokens sign (.body f.chars :: ts) = .ok (f.term sign :: terms) := by
  rw [readTokens, exceptBind_of_ok (read_form sign f), exceptBind_of_ok h]
  rfl

theorem readTokens_rest (rest : List (Sign × Form)) :
    readTokens .plus (restTokens rest) = .ok (rest.map fun p => p.2.term p.1) := by
  induction rest with
  | nil => rfl
  | cons p rest ih => exact readTokens_body p.1 ih

theorem readTokens_tokens (d : Sentence) : readTokens .plus d.tokens = .ok d.terms := by
  obtain ⟨lead, first, rest⟩ := d
  cases lead with
  | none => exact readTokens_body .plus (readTokens_rest rest)
  | some s => exact readTokens_body s (readTokens_rest rest)

/-- A body that is read first is written in a form. -/
theorem exists_body (sign : Sign) {body : List Char} {ts : List Token} {terms : List Term}
    (hb : Blank.remove body = body) (h : readTokens sign (.body body :: ts) = .ok terms) :
    ∃ f : Form, f.chars = body ∧ ∃ terms', readTokens .plus ts = .ok terms' ∧
      terms = f.term sign :: terms' := by
  obtain ⟨t, hterm, h₁⟩ := exceptBind_eq_ok_iff.1 h
  obtain ⟨terms', hterms, h₂⟩ := exceptBind_eq_ok_iff.1 h₁
  obtain ⟨f, hchars, rfl⟩ := (Term.read_eq_ok_iff hb).1 hterm
  exact ⟨f, hchars, terms', hterms, (Except.ok.inj h₂).symm⟩

theorem exists_rest {ts : List Token} {terms : List Term} (ht : Token.Tail ts)
    (hblank : ∀ b, Token.body b ∈ ts → Blank.remove b = b)
    (h : readTokens .plus ts = .ok terms) :
    ∃ rest : List (Sign × Form), restTokens rest = ts ∧
      rest.map (fun p => p.2.term p.1) = terms := by
  induction ht generalizing terms with
  | nil => exact ⟨[], rfl, Except.ok.inj h⟩
  | @cons s b ts _ ih =>
    have hb := hblank b (List.mem_cons_of_mem _ List.mem_cons_self)
    obtain ⟨f, rfl, terms', hterms, rfl⟩ := exists_body s hb h
    have hblank' : ∀ b, Token.body b ∈ ts → Blank.remove b = b := fun b hmem =>
      hblank b (List.mem_cons_of_mem _ (List.mem_cons_of_mem _ hmem))
    obtain ⟨rest, rfl, rfl⟩ := ih hblank' hterms
    exact ⟨(s, f) :: rest, rfl, rfl⟩

/-- Tokens in order that can be read are those of a sentence. -/
theorem exists_sentence {ts : List Token} {terms : List Term} (ho : Token.InOrder ts)
    (hblank : ∀ b, Token.body b ∈ ts → Blank.remove b = b)
    (h : readTokens .plus ts = .ok terms) : ∃ d : Sentence, d.tokens = ts ∧ d.terms = terms := by
  cases ho with
  | @unsigned b ts ht =>
    obtain ⟨f, rfl, terms', hterms, rfl⟩ := exists_body .plus (hblank b List.mem_cons_self) h
    obtain ⟨rest, rfl, rfl⟩ := exists_rest ht
      (fun b hmem => hblank b (List.mem_cons_of_mem _ hmem)) hterms
    exact ⟨⟨none, f, rest⟩, rfl, rfl⟩
  | @signed s b ts ht =>
    have hb := hblank b (List.mem_cons_of_mem _ List.mem_cons_self)
    obtain ⟨f, rfl, terms', hterms, rfl⟩ := exists_body s hb h
    obtain ⟨rest, rfl, rfl⟩ := exists_rest ht
      (fun b hmem => hblank b (List.mem_cons_of_mem _ (List.mem_cons_of_mem _ hmem))) hterms
    exact ⟨⟨some s, f, rest⟩, rfl, rfl⟩

theorem restTokens_flatMap_chars (rest : List (Sign × Form)) :
    (restTokens rest).flatMap Token.chars = restChars rest := by
  induction rest with
  | nil => rfl
  | cons p rest ih =>
    have hcons : (restTokens (p :: rest)).flatMap Token.chars =
      p.1.char :: (p.2.chars ++ (restTokens rest).flatMap Token.chars) := rfl
    rw [hcons, ih]
    rfl

theorem tokens_flatMap_chars (d : Sentence) : d.tokens.flatMap Token.chars = d.chars := by
  obtain ⟨lead, first, rest⟩ := d
  have hrest := restTokens_flatMap_chars rest
  cases lead with
  | none => exact congrArg (first.chars ++ ·) hrest
  | some s => exact congrArg (fun cs => s.char :: (first.chars ++ cs)) hrest

end Sentence

/-- The terms of an expression can be read exactly if it is a sentence, apart
from its blanks, and are those of the sentence. -/
theorem readTerms_eq_ok_iff {expression : String} {terms : List Term} :
    readTerms expression = .ok terms ↔
      ∃ d : Sentence, d.chars = Blank.remove expression.toList ∧ d.terms = terms := by
  unfold readTerms
  constructor
  · intro h
    by_cases he : expression = ""
    · rw [if_pos he] at h
      cases h
    · rw [if_neg he] at h
      obtain ⟨ts, hcheck, hread⟩ := exceptBind_eq_ok_iff.1 h
      obtain ⟨rfl, ho⟩ := Token.inOrder_of_check hcheck
      obtain ⟨d, htokens, hterms⟩ := Sentence.exists_sentence ho (fun _ => Token.remove_body) hread
      refine ⟨d, ?_, hterms⟩
      rw [← Token.flatten_scan, ← htokens, d.tokens_flatMap_chars]
  · rintro ⟨d, hchars, rfl⟩
    have hscan : Token.scan expression.toList = d.tokens := by
      rw [← Token.scan_remove, ← hchars, d.scan_chars]
    have he : expression ≠ "" := by
      rintro rfl
      have ho := d.inOrder_tokens
      rw [← hscan] at ho
      cases ho
    rw [if_neg he]
    refine (exceptBind_of_ok ?_).trans d.readTokens_tokens
    rw [hscan]
    exact d.inOrder_tokens.check_eq_ok

end DiceRoller
