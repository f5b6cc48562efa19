/-
# The tokens of an expression that are in order

Cutting an expression never leaves two bodies side by side, and the check
refuses two signs side by side and a sign at the end. So the tokens that pass
it are a body, perhaps with a sign in front of it, and then any number of signs
with a body each (`Token.inOrder_of_check`).

Key definitions: `Token.Tail`, `Token.InOrder`.
Key theorems: `Token.scan_remove`, `Token.scan_append`,
`Token.inOrder_of_check`, `Token.InOrder.check_eq_ok`,
`Token.check_eq_ok_iff_inOrder`.
-/
import DiceRoller.Expression.Token
import Mathlib.Data.List.Chain

namespace DiceRoller
namespace Token

/-! ### Cutting -/

theorem scan_remove (cs : List Char) : scan (Blank.remove cs) = scan cs := by
  induction cs with
  | nil => rfl
  | cons c cs ih =>
    by_cases hb : Blank.isBlank c = true
    · have hs : Sign.ofChar? c = none := by
        cases hc : Sign.ofChar? c with
        | none => rfl
        | some s =>
          obtain rfl := Sign.ofChar?_eq_some_iff.1 hc
          rw [isBlank_char] at hb
          cases hb
      rw [Blank.remove_cons_of_blank hb, scan_blank hs hb, ih]
    · rw [Bool.not_eq_true] at hb
      rw [Blank.remove_cons_of_not_blank hb, scan_cons, scan_cons, ih]

theorem remove_body {cs body : List Char} (h : Token.body body ∈ scan cs) :
    Blank.remove body = body := by
  refine List.filter_eq_self.2 fun c hc => ?_
  have hmem : c ∈ (scan cs).flatMap chars := List.mem_flatMap.2 ⟨_, h, hc⟩
  rw [flatten_scan] at hmem
  rw [Blank.isBlank_of_mem_remove hmem]
  rfl

/-- A character that belongs to a body. -/
def IsBodyChar (c : Char) : Prop := Sign.ofChar? c = none ∧ Blank.isBlank c = false

theorem scan_bodyChar {c : Char} (hc : IsBodyChar c) (cs : List Char) :
    scan (c :: cs) = consBody c (scan cs) := by
  rw [scan_cons, cons, hc.1, hc.2]
  rfl

/-- A body ends where no other one begins. -/
theorem scan_append {body rest : List Char} (hbody : ∀ c ∈ body, IsBodyChar c) (hne : body ≠ [])
    (hrest : ∀ b ts, scan rest ≠ .body b :: ts) :
    scan (body ++ rest) = .body body :: scan rest := by
  induction body with
  | nil => exact absurd rfl hne
  | cons c cs ih =>
    have hc := hbody c List.mem_cons_self
    rw [List.cons_append, scan_bodyChar hc]
    cases cs with
    | nil =>
      rw [List.nil_append]
      cases hs : scan rest with
      | nil => rfl
      | cons t ts =>
        cases t with
        | sign s => rfl
        | body b => exact absurd hs (hrest b ts)
    | cons c' cs =>
      rw [ih (fun d hd => hbody d (List.mem_cons_of_mem _ hd)) (List.cons_ne_nil _ _)]
      rfl

/-- One of two tokens side by side is a sign. -/
theorem isChain_scan (cs : List Char) :
    (scan cs).IsChain fun t u => t.isSign = true ∨ u.isSign = true := by
  induction cs with
  | nil => exact .nil
  | cons c cs ih =>
    rw [scan_cons, cons]
    split
    · cases hs : scan cs with
      | nil => exact .singleton _
      | cons t ts =>
        rw [hs] at ih
        exact List.isChain_cons_cons.2 ⟨.inl rfl, ih⟩
    · split
      · exact ih
      · cases hs : scan cs with
        | nil => exact .singleton _
        | cons t ts =>
          rw [hs] at ih
          cases t with
          | sign s => exact List.isChain_cons_cons.2 ⟨.inr rfl, ih⟩
          | body b =>
            cases ts with
            | nil => exact .singleton _
            | cons t ts =>
              obtain ⟨h, ih⟩ := List.isChain_cons_cons.1 ih
              exact List.isChain_cons_cons.2 ⟨h, ih⟩

/-! ### Checking -/

/-- What may stand after a body: any number of signs with a body each. -/
inductive Tail : List Token → Prop
  | nil : Tail []
  | cons {s : Sign} {b : List Char} {ts : List Token} : Tail ts → Tail (sign s :: body b :: ts)

/-- The tokens are a body, perhaps with a sign in front of it, and a tail. -/
inductive InOrder : List Token → Prop
  | unsigned {b : List Char} {ts : List Token} : Tail ts → InOrder (body b :: ts)
  | signed {s : Sign} {b : List Char} {ts : List Token} : Tail ts →
      InOrder (sign s :: body b :: ts)

theorem doubleSignFrom?_eq_none_iff {n : Nat} {ts : List Token} : doubleSignFrom? n ts = none ↔
    ts.IsChain fun t u => ¬ (t.isSign = true ∧ u.isSign = true) := by
  induction ts generalizing n with
  | nil => exact ⟨fun _ => .nil, fun _ => rfl⟩
  | cons t ts ih =>
    cases ts with
    | nil => exact ⟨fun _ => .singleton t, fun _ => rfl⟩
    | cons u ts =>
      rw [doubleSignFrom?, List.isChain_cons_cons, ← ih (n := n + 1), ← Bool.and_eq_true]
      split
      · next h => simp [h]
      · next h => simp [h]

theorem problem?_eq_none_iff {ts : List Token} : problem? ts = none ↔
    (∃ b, ts.getLast? = some (body b)) ∧
      ts.IsChain fun t u => ¬ (t.isSign = true ∧ u.isSign = true) := by
  rw [← doubleSignFrom?_eq_none_iff (n := 1), problem?]
  cases hlast : ts.getLast? with
  | none => simp
  | some t =>
    cases t with
    | sign s => simp [isSign]
    | body b => simp [isSign, doubleSign?]

theorem tail_of_isChain : ∀ {b : List Char} {ts : List Token},
    (body b :: ts).IsChain (fun t u => t.isSign = true ∨ u.isSign = true) →
    (body b :: ts).IsChain (fun t u => ¬ (t.isSign = true ∧ u.isSign = true)) →
    (∃ b', (body b :: ts).getLast? = some (body b')) → Tail ts
  | _, [], _, _, _ => .nil
  | _, body b :: ts, hbodies, _, _ => by
    obtain ⟨h, -⟩ := List.isChain_cons_cons.1 hbodies
    rcases h with h | h <;> cases h
  | _, [sign s], _, _, hlast => by
    obtain ⟨b', h⟩ := hlast
    cases h
  | _, sign s :: sign s' :: ts, _, hsigns, _ => by
    obtain ⟨-, hsigns⟩ := List.isChain_cons_cons.1 hsigns
    exact absurd ⟨rfl, rfl⟩ (List.isChain_cons_cons.1 hsigns).1
  | _, sign s :: body b :: ts, hbodies, hsigns, hlast => by
    obtain ⟨-, hbodies⟩ := List.isChain_cons_cons.1 hbodies
    obtain ⟨-, hsigns⟩ := List.isChain_cons_cons.1 hsigns
    obtain ⟨b', hlast⟩ := hlast
    rw [List.getLast?_cons_cons, List.getLast?_cons_cons] at hlast
    exact .cons (tail_of_isChain (List.isChain_cons_cons.1 hbodies).2
      (List.isChain_cons_cons.1 hsigns).2 ⟨b', hlast⟩)

theorem Tail.isChain {R : Token → Token → Prop} (hsign : ∀ b s, R (body b) (sign s))
    (hbody : ∀ s b, R (sign s) (body b)) {ts : List Token} (ht : Tail ts) (b : List Char) :
    (body b :: ts).IsChain R := by
  induction ht generalizing b with
  | nil => exact .singleton _
  | cons _ ih =>
    exact List.isChain_cons_cons.2 ⟨hsign _ _, List.isChain_cons_cons.2 ⟨hbody _ _, ih _⟩⟩

theorem Tail.getLast? {ts : List Token} (ht : Tail ts) (b : List Char) :
    ∃ b', (body b :: ts).getLast? = some (body b') := by
  induction ht generalizing b with
  | nil => exact ⟨b, rfl⟩
  | cons _ ih =>
    rw [List.getLast?_cons_cons, List.getLast?_cons_cons]
    exact ih _

theorem inOrder_of_isChain {ts : List Token} (hlast : ∃ b, ts.getLast? = some (body b))
    (hsigns : ts.IsChain fun t u => ¬ (t.isSign = true ∧ u.isSign = true))
    (hbodies : ts.IsChain fun t u => t.isSign = true ∨ u.isSign = true) : InOrder ts := by
  obtain ⟨b', hlast⟩ := hlast
  match ts with
  | [] => cases hlast
  | body b :: ts => exact .unsigned (tail_of_isChain hbodies hsigns ⟨b', hlast⟩)
  | [sign s] => cases hlast
  | sign s :: sign s' :: ts => exact absurd ⟨rfl, rfl⟩ (List.isChain_cons_cons.1 hsigns).1
  | sign s :: body b :: ts =>
    rw [List.getLast?_cons_cons] at hlast
    exact .signed (tail_of_isChain (List.isChain_cons_cons.1 hbodies).2
      (List.isChain_cons_cons.1 hsigns).2 ⟨b', hlast⟩)

theorem InOrder.isChain {R : Token → Token → Prop} (hsign : ∀ b s, R (body b) (sign s))
    (hbody : ∀ s b, R (sign s) (body b)) {ts : List Token} (h : InOrder ts) : ts.IsChain R := by
  cases h with
  | unsigned ht => exact ht.isChain hsign hbody _
  | signed ht => exact List.isChain_cons_cons.2 ⟨hbody _ _, ht.isChain hsign hbody _⟩

theorem InOrder.isChain_signs {ts : List Token} (h : InOrder ts) :
    ts.IsChain fun t u => ¬ (t.isSign = true ∧ u.isSign = true) :=
  h.isChain (fun _ _ h => nomatch h.1) fun _ _ h => nomatch h.2

theorem InOrder.isChain_bodies {ts : List Token} (h : InOrder ts) :
    ts.IsChain fun t u => t.isSign = true ∨ u.isSign = true :=
  h.isChain (fun _ _ => .inr rfl) fun _ _ => .inl rfl

theorem InOrder.getLast? {ts : List Token} (h : InOrder ts) :
    ∃ b, ts.getLast? = some (body b) := by
  cases h with
  | @unsigned b _ ht => exact ht.getLast? b
  | @signed _ b _ ht =>
    rw [List.getLast?_cons_cons]
    exact ht.getLast? b

theorem inOrder_of_check {cs : List Char} {ts : List Token} (h : check (scan cs) = .ok ts) :
    ts = scan cs ∧ InOrder ts := by
  unfold check at h
  split at h
  · cases h
  · next hnone =>
    obtain rfl := Except.ok.inj h
    obtain ⟨hlast, hsigns⟩ := problem?_eq_none_iff.1 hnone
    exact ⟨rfl, inOrder_of_isChain hlast hsigns (isChain_scan cs)⟩

theorem InOrder.check_eq_ok {ts : List Token} (h : InOrder ts) : check ts = .ok ts := by
  have hnone : problem? ts = none := problem?_eq_none_iff.2 ⟨h.getLast?, h.isChain_signs⟩
  rw [check, hnone]

theorem check_eq_ok_iff_inOrder {cs : List Char} :
    check (scan cs) = .ok (scan cs) ↔ InOrder (scan cs) :=
  ⟨fun h => (inOrder_of_check h).2, InOrder.check_eq_ok⟩

theorem exists_problem? {cs : List Char} (h : ¬ InOrder (scan cs)) :
    ∃ f, problem? (scan cs) = some f := by
  refine Option.ne_none_iff_exists'.1 fun hnone => h (check_eq_ok_iff_inOrder.1 ?_)
  rw [check, hnone]

theorem problem?_cases {ts : List Token} {f : Fault} (h : problem? ts = some f) :
    f = .emptyExpression ∨ f = .trailingSign ∨ ∃ n, f = .consecutiveSigns n := by
  unfold problem? at h
  split at h
  · exact .inl (Option.some.inj h).symm
  · split at h
    · exact .inr (.inl (Option.some.inj h).symm)
    · obtain ⟨n, -, hf⟩ := Option.map_eq_some_iff.1 h
      exact .inr (.inr ⟨n, hf.symm⟩)

/-! ### The first two signs side by side -/

/-- The place that is reported is that of the first sign of the leftmost two. -/
theorem doubleSignFrom?_of_leftmost {n : Nat} {before after : List Token} {s s' : Sign}
    (h : (before ++ [sign s]).IsChain fun t u => ¬ (t.isSign = true ∧ u.isSign = true)) :
    doubleSignFrom? n (before ++ sign s :: sign s' :: after) = some (n + before.length) := by
  induction before generalizing n with
  | nil => rfl
  | cons t ts ih =>
    have hskip : ∀ u us, ts ++ sign s :: sign s' :: after = u :: us →
        ¬ (t.isSign = true ∧ u.isSign = true) →
        doubleSignFrom? n (t :: (ts ++ sign s :: sign s' :: after)) =
          doubleSignFrom? (n + 1) (ts ++ sign s :: sign s' :: after) := by
      intro u us hcons hne
      rw [hcons, doubleSignFrom?, if_neg (by rwa [Bool.and_eq_true])]
    have hrest : (ts ++ [sign s]).IsChain fun t u => ¬ (t.isSign = true ∧ u.isSign = true) := by
      rw [List.cons_append] at h
      exact h.tail
    have hstep : doubleSignFrom? n (t :: (ts ++ sign s :: sign s' :: after)) =
        doubleSignFrom? (n + 1) (ts ++ sign s :: sign s' :: after) := by
      cases ts with
      | nil => exact hskip _ _ rfl (List.isChain_cons_cons.1 h).1
      | cons u us => exact hskip _ _ rfl (List.isChain_cons_cons.1 h).1
    rw [List.cons_append, hstep, ih hrest, List.length_cons, Nat.add_assoc, Nat.add_comm 1]

/-! ### Tokens as they are written -/

/-- The text of the tokens, one after the other. -/
def text (ts : List Token) : String := String.ofList (ts.flatMap chars)

/-- A character opens a body, or is put in front of the first one; the other
bodies are as they were. -/
theorem mem_consBody {c : Char} {b : List Char} {ts : List Token} (h : body b ∈ consBody c ts) :
    body b ∈ ts ∨ ∃ b', b = c :: b' ∧ (b' = [] ∨ body b' ∈ ts) := by
  cases ts with
  | nil =>
    cases List.mem_singleton.1 h
    exact .inr ⟨[], rfl, .inl rfl⟩
  | cons t ts =>
    cases t with
    | sign s =>
      rcases List.mem_cons.1 h with h | h
      · cases h
        exact .inr ⟨[], rfl, .inl rfl⟩
      · exact .inl h
    | body b' =>
      rcases List.mem_cons.1 h with h | h
      · cases h
        exact .inr ⟨b', rfl, .inr List.mem_cons_self⟩
      · exact .inl (List.mem_cons_of_mem _ h)

theorem isBodyChar_of_mem_scan {cs b : List Char} (h : body b ∈ scan cs) :
    b ≠ [] ∧ ∀ c ∈ b, IsBodyChar c := by
  induction cs generalizing b with
  | nil => cases h
  | cons c cs ih =>
    cases hs : Sign.ofChar? c with
    | some s =>
      rw [scan_cons, cons, hs] at h
      rcases List.mem_cons.1 h with h | h
      · cases h
      · exact ih h
    | none =>
      cases hb : Blank.isBlank c with
      | true =>
        rw [scan_blank hs hb] at h
        exact ih h
      | false =>
        have hc : IsBodyChar c := ⟨hs, hb⟩
        rw [scan_bodyChar hc] at h
        rcases mem_consBody h with hmem | ⟨b', rfl, hb'⟩
        · exact ih hmem
        · refine ⟨List.cons_ne_nil _ _, fun d hd => ?_⟩
          rcases List.mem_cons.1 hd with rfl | hd
          · exact hc
          · rcases hb' with rfl | hb'
            · cases hd
            · exact (ih hb').2 d hd

/-- Tokens that an expression could have are those of their own text. -/
theorem scan_flatMap_chars {ts : List Token}
    (hproper : ∀ b, body b ∈ ts → b ≠ [] ∧ ∀ c ∈ b, IsBodyChar c)
    (hbodies : ts.IsChain fun t u => t.isSign = true ∨ u.isSign = true) :
    scan (ts.flatMap chars) = ts := by
  induction ts with
  | nil => rfl
  | cons t ts ih =>
    have hrest := ih (fun b hb => hproper b (List.mem_cons_of_mem _ hb)) hbodies.tail
    cases t with
    | sign s =>
      have hchars : (sign s :: ts).flatMap chars = s.char :: ts.flatMap chars := rfl
      rw [hchars, scan_sign, hrest]
    | body b =>
      obtain ⟨hne, hb⟩ := hproper b List.mem_cons_self
      have hnext : ∀ b' us, scan (ts.flatMap chars) ≠ body b' :: us := by
        intro b' us hscan
        rw [hrest] at hscan
        rw [hscan] at hbodies
        rcases (List.isChain_cons_cons.1 hbodies).1 with h | h <;> cases h
      rw [List.flatMap_cons, chars, scan_append hb hne hnext, hrest]

/-! ### Cutting the tokens before a body -/

/-- In front of a body stands a sign, perhaps none if it is the first one; and
what is in front of that is in order by itself. -/
theorem InOrder.split {before after : List Token} {b : List Char}
    (h : InOrder (before ++ body b :: after)) :
    (∃ lead : Option Sign, before = lead.toList.map sign) ∨
      ∃ before' s, before = before' ++ [sign s] ∧ InOrder before' := by
  rcases List.eq_nil_or_concat' before with rfl | ⟨front, t, rfl⟩
  · exact .inl ⟨none, rfl⟩
  have hbodies := h.isChain_bodies
  have hsigns := h.isChain_signs
  rw [List.append_assoc, List.singleton_append] at hbodies hsigns
  cases t with
  | body b' =>
    have htwo := (List.isChain_append_cons_cons.1 hbodies).2.1
    rcases htwo with h | h <;> cases h
  | sign s =>
    rcases List.eq_nil_or_concat' front with rfl | ⟨front', u, rfl⟩
    · exact .inl ⟨some s, rfl⟩
    refine .inr ⟨front' ++ [u], s, rfl, ?_⟩
    rw [List.append_assoc, List.singleton_append] at hbodies hsigns
    obtain ⟨hfront, -, -⟩ := List.isChain_append_cons_cons.1 hbodies
    obtain ⟨hfront', htwo, -⟩ := List.isChain_append_cons_cons.1 hsigns
    cases u with
    | sign s' => exact absurd ⟨rfl, rfl⟩ htwo
    | body b' => exact inOrder_of_isChain ⟨b', List.getLast?_concat⟩ hfront' hfront

end Token
end DiceRoller
