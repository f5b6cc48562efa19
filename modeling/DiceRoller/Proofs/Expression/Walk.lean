/-
# Cutting an expression, and walking along its tokens

The texts of the tokens of an expression are the only texts that are signs and
bodies, no two bodies side by side, and make up the expression without its
blanks (`Token.map_chars_scan_eq_iff`).

An evaluation walks along the tokens and comes to one body after the other.
`Token.walk` lists them with the signs they are evaluated with, and an
evaluation of the tokens is nothing but evaluating these in turn
(`evalTokens_eq_mapM`). Where the tokens are in order, the sign of a body is the
token in front of it, or a plus if there is none; and there is always something
to be read behind the sign.

Key definitions: `Token.IsSignText`, `Token.IsBodyText`, `Token.walk`.
Key theorems: `Token.map_chars_scan_eq_iff`, `evalTokens_eq_mapM`,
`Token.InOrder.exists_sign`, `Term.read_body_ne_emptyTerm`, `evalTerms_walks`.
-/
import DiceRoller.Proofs.Expression.FirstFault
import DiceRoller.Proofs.Term.Verdict

namespace DiceRoller

namespace Token

variable {cs b w : List Char} {ts before after : List Token} {texts : List (List Char)}

/-! ### The texts of tokens -/

/-- The text is a single sign. -/
def IsSignText (w : List Char) : Prop := ∃ s : Sign, w = [s.char]

/-- The text is not empty and holds neither signs nor blanks. -/
def IsBodyText (w : List Char) : Prop := w ≠ [] ∧ ∀ c ∈ w, IsBodyChar c

theorem chars_ofChars (w : List Char) : (ofChars w).chars = w := by
  match w with
  | [] => rfl
  | [c] =>
    rw [ofChars]
    cases hs : Sign.ofChar? c with
    | some s => rw [Sign.ofChar?_eq_some_iff.1 hs, chars]
    | none => rfl
  | _ :: _ :: _ => rfl

theorem chars_eq_of_ofChars (h : ofChars w = body b) : b = w := by
  rw [← chars_ofChars w, h, chars]

theorem isSignText_of_isSign {t : Token} (h : t.isSign = true) : IsSignText t.chars := by
  cases t with
  | sign s => exact ⟨s, rfl⟩
  | body b => cases h

theorem IsBodyText.not_isSignText (h : IsBodyText w) : ¬ IsSignText w := by
  rintro ⟨s, rfl⟩
  have hnone := (h.2 s.char List.mem_cons_self).1
  rw [Sign.ofChar?_char] at hnone
  cases hnone

theorem isText_of_mem_scan {t : Token} (h : t ∈ scan cs) :
    IsSignText t.chars ∨ IsBodyText t.chars := by
  cases t with
  | sign s => exact .inl ⟨s, rfl⟩
  | body b => exact .inr (isBodyChar_of_mem_scan h)

/-- The tokens are the only ones, each a sign or a body and no two bodies side
by side, that make up the expression without its blanks. -/
theorem map_chars_scan_eq_iff : (scan cs).map chars = texts ↔
    texts.flatten = Blank.remove cs ∧ (∀ w ∈ texts, IsSignText w ∨ IsBodyText w) ∧
      texts.IsChain fun v w => ¬ (IsBodyText v ∧ IsBodyText w) := by
  constructor
  · rintro rfl
    refine ⟨?_, fun w hw => ?_, ?_⟩
    · rw [← List.flatMap_def, flatten_scan]
    · obtain ⟨t, ht, rfl⟩ := List.mem_map.1 hw
      exact isText_of_mem_scan ht
    · refine List.isChain_map_of_isChain chars (fun t u htu => ?_) (isChain_scan cs)
      rintro ⟨ht, hu⟩
      rcases htu with hsign | hsign
      · exact ht.not_isSignText (isSignText_of_isSign hsign)
      · exact hu.not_isSignText (isSignText_of_isSign hsign)
  · rintro ⟨hflat, htext, hchain⟩
    -- the tokens that the texts are
    have hmap : (texts.map ofChars).map chars = texts := by
      simp [List.map_map, Function.comp_def, chars_ofChars]
    have hproper : ∀ b, body b ∈ texts.map ofChars → b ≠ [] ∧ ∀ c ∈ b, IsBodyChar c := by
      intro b hb
      obtain ⟨w, hw, hbody⟩ := List.mem_map.1 hb
      obtain rfl := chars_eq_of_ofChars hbody
      rcases htext b hw with ⟨s, rfl⟩ | hb
      · rw [ofChars, Sign.ofChar?_char] at hbody
        cases hbody
      · exact hb
    have hbodies : (texts.map ofChars).IsChain fun t u => t.isSign = true ∨ u.isSign = true := by
      refine (List.isChain_map ofChars).2 (hchain.imp_of_mem_imp fun v w hv hw hvw => ?_)
      cases ht : ofChars v with
      | sign s => exact .inl rfl
      | body b =>
        cases hu : ofChars w with
        | sign s => exact .inr rfl
        | body b' =>
          obtain rfl := chars_eq_of_ofChars ht
          obtain rfl := chars_eq_of_ofChars hu
          refine absurd ⟨hproper b ?_, hproper b' ?_⟩ hvw
          · exact List.mem_map.2 ⟨b, hv, ht⟩
          · exact List.mem_map.2 ⟨b', hw, hu⟩
    have hscan := scan_flatMap_chars hproper hbodies
    rw [List.flatMap_def, hmap, hflat, scan_remove] at hscan
    rw [hscan, hmap]

theorem scan_flatten_chars (cs : List Char) : scan ((scan cs).map chars).flatten = scan cs := by
  rw [← List.flatMap_def, flatten_scan, scan_remove]

/-! ### The walk -/

/-- The bodies among the tokens, each with the sign that an evaluation has come
by when it gets there. -/
def walk : Sign → List Token → List (Sign × List Char)
  | _, [] => []
  | _, .sign s :: ts => walk s ts
  | s, .body b :: ts => (s, b) :: walk .plus ts

theorem walk_append (s : Sign) (before after : List Token) :
    walk s (before ++ after) = walk s before ++ walk (signAfter s before) after := by
  induction before generalizing s with
  | nil => rfl
  | cons t ts ih =>
    cases t with
    | sign s' => exact ih s'
    | body b => rw [List.cons_append, walk, ih, walk, List.cons_append, signAfter]

/-- The walk comes to every body once, in order. -/
theorem map_walk (s : Sign) (ts : List Token) :
    (walk s ts).map (fun u => body u.2) = ts.filter fun t => !t.isSign := by
  induction ts generalizing s with
  | nil => rfl
  | cons t ts ih =>
    cases t with
    | sign s' => exact ih s'
    | body b =>
      rw [walk, List.map_cons, ih]
      rfl

/-- The sign of a body is the token in front of it, or a plus if it is the
first token. -/
theorem InOrder.exists_sign (h : InOrder (before ++ body b :: after)) :
    (before = [] ∧ signAfter .plus before = .plus) ∨
      ∃ front, before = front ++ [sign (signAfter .plus before)] := by
  rcases h.split with ⟨lead, rfl⟩ | ⟨front, s, rfl, -⟩
  · cases lead with
    | none => exact .inl ⟨rfl, rfl⟩
    | some s => exact .inr ⟨[], rfl⟩
  · refine .inr ⟨front, ?_⟩
    rw [signAfter_append_sign]

end Token

/-! ### Evaluating along the walk -/

theorem evalTokens_eq_mapM (o : Options) (sign : Sign) (tokens : List Token) :
    evalTokens o sign tokens =
      (Token.walk sign tokens).mapM fun u => evalTerm o u.1 u.2 := by
  induction tokens generalizing sign with
  | nil => rfl
  | cons t ts ih =>
    cases t with
    | sign s => exact ih s
    | body b => rw [evalTokens, Token.walk, List.mapM_cons, ih]

theorem Lower.textAfter_ne_nil {s : List Char} (before : List Char) (hs : s ≠ []) :
    textAfter before s ≠ [] := by
  cases s with
  | nil => exact absurd rfl hs
  | cons c rest =>
    refine List.append_ne_nil_of_left_ne_nil ?_ _
    split
    · exact List.cons_ne_nil _ _
    · split <;> exact List.cons_ne_nil _ _

/-- Behind its sign a body leaves something to be read. -/
theorem Term.read_body_ne_emptyTerm {b : List Char} (hb : Token.IsBodyText b) (sign : Sign) :
    read (sign.char :: b) ≠ .error .emptyTerm := by
  have hremove : Blank.remove b = b := by
    refine List.filter_eq_self.2 fun c hc => ?_
    rw [(hb.2 c hc).2]
    rfl
  intro hread
  rw [read_sign_cons hremove] at hread
  cases readBody_eq_iff.1 hread with
  | empty hnil => exact Lower.textAfter_ne_nil _ hb.1 hnil

/-- **Cutting an expression, and walking along its tokens.** The texts of the
tokens are the only ones, each a sign or a body and no two bodies side by side,
that make up the expression without its blanks; cut again, they give the same
tokens. If the tokens are in order, an evaluation is that of the bodies in turn,
each with the sign in front of it, or a plus if there is none; and none of them
is read as an empty term. -/
theorem evalTerms_walks (o : Options) (expression : String) :
    let tokens := Token.scan expression.toList
    (∀ texts, tokens.map Token.chars = texts ↔
      texts.flatten = Blank.remove expression.toList ∧
      (∀ w ∈ texts, Token.IsSignText w ∨ Token.IsBodyText w) ∧
      texts.IsChain fun v w => ¬ (Token.IsBodyText v ∧ Token.IsBodyText w)) ∧
    Token.scan (tokens.map Token.chars).flatten = tokens ∧
    (Token.check tokens = .ok tokens →
      evalTerms o expression =
        (Token.walk .plus tokens).mapM (fun u => evalTerm o u.1 u.2) ∧
      (Token.walk .plus tokens).map (fun u => Token.body u.2) =
        tokens.filter (fun t => !t.isSign) ∧
      ∀ before b after, tokens = before ++ .body b :: after → ∃ sign,
        (before = [] ∧ sign = .plus ∨ ∃ front, before = front ++ [.sign sign]) ∧
        Token.walk .plus tokens =
          Token.walk .plus before ++ (sign, b) :: Token.walk .plus after ∧
        Term.read (sign.char :: b) ≠ .error .emptyTerm) := by
  intro tokens
  refine ⟨fun texts => Token.map_chars_scan_eq_iff, Token.scan_flatten_chars _, fun hcheck => ?_⟩
  have horder : Token.InOrder tokens := Token.check_eq_ok_iff_inOrder.1 hcheck
  refine ⟨?_, Token.map_walk _ _, fun before b after hsplit => ?_⟩
  · rw [← evalTokens_eq_mapM]
    exact funext fun T => evalTerms_of_inOrder horder
  · have hbody : Token.IsBodyText b := by
      refine @Token.isBodyChar_of_mem_scan expression.toList b ?_
      show Token.body b ∈ tokens
      rw [hsplit]
      exact List.mem_append_right _ List.mem_cons_self
    rw [hsplit] at horder ⊢
    refine ⟨signAfter .plus before, ?_, Token.walk_append _ _ _,
      Term.read_body_ne_emptyTerm hbody _⟩
    exact horder.exists_sign

/-- A dice term under a minus and a constant under a plus, among blanks. -/
theorem evalTerms_walks_spaced :
    let tokens := Token.scan " - 2D6 +\t3".toList
    Token.check tokens = .ok tokens ∧
      Token.walk .plus tokens = [(.minus, "2D6".toList), (.plus, "3".toList)] ∧
      (∀ T, evalTerms {} " - 2D6 +\t3" T =
        ([(.minus, "2D6".toList), (.plus, "3".toList)].mapM fun u => evalTerm {} u.1 u.2) T) ∧
      Term.read "-2D6".toList ≠ .error .emptyTerm := by
  intro tokens
  have hcheck : Token.check tokens = .ok tokens := by decide +kernel
  have hwalk : Token.walk .plus tokens = [(.minus, "2D6".toList), (.plus, "3".toList)] := by
    decide +kernel
  have hsplit : tokens =
      [.sign .minus] ++ .body "2D6".toList :: [.sign .plus, .body "3".toList] := by
    decide +kernel
  obtain ⟨hrun, -, hbodies⟩ := (evalTerms_walks {} " - 2D6 +\t3").2.2 hcheck
  obtain ⟨sign, hsign, -, hread⟩ := hbodies _ _ _ hsplit
  refine ⟨hcheck, hwalk, fun T => ?_, ?_⟩
  · rw [hrun, hwalk]
  · rcases hsign with ⟨hnil, -⟩ | ⟨front, hfront⟩
    · cases hnil
    · obtain ⟨-, hlast⟩ := List.append_inj' (show [] ++ [Token.sign .minus] = _ from hfront) rfl
      cases hlast
      exact hread

end DiceRoller
