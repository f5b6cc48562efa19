/-
# Commands made of words

A command can be made of words by putting blanks between them. Splitting it does
not always give the words back: a blank within a word separates, and quotes and
backslashes do not come through. It does give them back exactly if every word is
bare, that is, if it has no such character (`split_joined_eq_ok_iff`). Blanks that
stand next to each other, as around a group of no words, make no difference.

What comes after a separator is split by itself, once what is in front of it has
been split (`split_append_blank`).

Key definitions: `Words.isQuoting`, `Words.Bare`.
Key theorems: `Words.split_append_blank`, `Words.split_intercalate`,
`Words.split_joined_eq_ok_iff`.
-/
import DiceRoller.Proofs.Steps
import DiceRoller.Text.Words
import Mathlib.Data.List.Forall2

namespace DiceRoller
namespace Words

/-- The characters that stand for something else: quotes and the backslash. -/
def isQuoting (c : Char) : Bool := c == '\\' || c == '\'' || c == '"'

/-- The word has only characters that stand for themselves. -/
def Bare (w : String) : Prop := ∀ c ∈ w.toList, isSeparator c = false ∧ isQuoting c = false

instance (w : String) : Decidable (Bare w) :=
  List.decidableBAll (fun c => isSeparator c = false ∧ isQuoting c = false) w.toList

/-- The characters that have been passed but may still belong to the word. -/
def Mode.held : Mode → List Char
  | .doubleEscaped => ['\\']
  | _ => []

variable {mode : Mode} {word : Option (List Char)} {cs us rest : List Char}
  {ws vs : List String} {c q : Char} {p : Problem} {a b w : String}

/-! ### One step -/

theorem isQuoting_eq_false_iff :
    isQuoting c = false ↔ c ≠ '\\' ∧ c ≠ '\'' ∧ c ≠ '"' := by
  simp [isQuoting, and_assoc]

theorem isSeparator_of_isQuoting (h : isQuoting c = true) : isSeparator c = false := by
  simp only [isQuoting, Bool.or_eq_true, beq_iff_eq] at h
  rcases h with (rfl | rfl) | rfl <;> rfl

@[simp] theorem getD_extend (word : Option (List Char)) (cs : List Char) :
    (extend word cs).getD [] = word.getD [] ++ cs := rfl

theorem map_eq_ok_iff {f : List String → List String} {x : Except Problem (List String)} :
    x.map f = .ok ws ↔ ∃ vs, x = .ok vs ∧ f vs = ws := by
  cases x with
  | ok vs => simp [Except.map]
  | error p => simp [Except.map]

theorem close_append (word : Option (List Char)) (vs ws : List String) :
    close word (vs ++ ws) = close word vs ++ ws := by
  cases word <;> rfl

theorem flatMap_close (word : Option (List Char)) (ws : List String) :
    (close word ws).flatMap String.toList = word.getD [] ++ ws.flatMap String.toList := by
  cases word <;> simp [close]

theorem splitFrom_separator (hc : isSeparator c = true) :
    splitFrom .plain word (c :: rest) = (splitFrom .plain none rest).map (close word) := by
  rw [splitFrom, if_pos hc]

theorem splitFrom_bare (hc : isSeparator c = false) (hq : isQuoting c = false) :
    splitFrom .plain word (c :: rest) = splitFrom .plain (extend word [c]) rest := by
  obtain ⟨h₁, h₂, h₃⟩ := isQuoting_eq_false_iff.1 hq
  rw [splitFrom, if_neg (by rw [hc]; exact Bool.false_ne_true), if_neg h₁, if_neg h₂, if_neg h₃]

theorem splitFrom_quoting (word : Option (List Char)) (hq : isQuoting c = true) :
    ∃ mode' word', (∀ rest, splitFrom .plain word (c :: rest) = splitFrom mode' word' rest) ∧
      word'.getD [] ++ mode'.held = word.getD [] := by
  have hc : ¬ isSeparator c = true := by
    rw [isSeparator_of_isQuoting hq]
    exact Bool.false_ne_true
  simp only [isQuoting, Bool.or_eq_true, beq_iff_eq] at hq
  simp only [splitFrom, if_neg hc]
  rcases hq with (rfl | rfl) | rfl
  · exact ⟨.escaped, word, fun _ => rfl, List.append_nil _⟩
  · exact ⟨.single, extend word [], fun _ => rfl, by simp [Mode.held]⟩
  · exact ⟨.double, extend word [], fun _ => rfl, by simp [Mode.held]⟩

/-- A character separates, or the word under way goes on with some characters that
it had and the new one, in order. -/
theorem splitFrom_cons (mode : Mode) (word : Option (List Char)) (c : Char) :
    mode = .plain ∧ isSeparator c = true ∨ ∃ mode' word',
      (∀ rest, splitFrom mode word (c :: rest) = splitFrom mode' word' rest) ∧
        (word'.getD [] ++ mode'.held).Sublist (word.getD [] ++ mode.held ++ [c]) := by
  cases mode with
  | plain =>
    cases hc : isSeparator c with
    | true => exact .inl ⟨rfl, rfl⟩
    | false =>
      cases hq : isQuoting c with
      | false =>
        exact .inr ⟨.plain, extend word [c], fun _ => splitFrom_bare hc hq, by simp [Mode.held]⟩
      | true =>
        obtain ⟨mode', word', hstep, hword⟩ := splitFrom_quoting word hq
        refine .inr ⟨mode', word', hstep, ?_⟩
        rw [hword]
        simp [Mode.held]
  | escaped => exact .inr ⟨.plain, extend word [c], fun _ => rfl, by simp [Mode.held]⟩
  | single =>
    refine .inr ?_
    simp only [splitFrom]
    by_cases hc : c = '\''
    · exact ⟨.plain, word, fun _ => if_pos hc, by simp [Mode.held]⟩
    · exact ⟨.single, extend word [c], fun _ => if_neg hc, by simp [Mode.held]⟩
  | double =>
    refine .inr ?_
    simp only [splitFrom]
    by_cases hc : c = '"'
    · exact ⟨.plain, word, fun _ => if_pos hc, by simp [Mode.held]⟩
    simp only [if_neg hc]
    by_cases hb : c = '\\'
    · exact ⟨.doubleEscaped, word, fun _ => if_pos hb, by simp [Mode.held, hb]⟩
    · exact ⟨.double, extend word [c], fun _ => if_neg hb, by simp [Mode.held]⟩
  | doubleEscaped =>
    refine .inr ⟨.double, _, fun _ => rfl, ?_⟩
    split <;> simp [Mode.held]

/-! ### A whole command -/

/-- The characters of the words are characters of the command, in order. -/
theorem sublist_of_splitFrom (h : splitFrom mode word cs = .ok ws) :
    (ws.flatMap String.toList).Sublist (word.getD [] ++ mode.held ++ cs) := by
  induction cs generalizing mode word ws with
  | nil =>
    cases mode with
    | plain =>
      cases h
      simp [flatMap_close, Mode.held]
    | _ => cases h
  | cons c rest ih =>
    rcases splitFrom_cons mode word c with ⟨rfl, hc⟩ | ⟨mode', word', hstep, hsub⟩
    · rw [splitFrom_separator hc] at h
      obtain ⟨vs, hvs, rfl⟩ := map_eq_ok_iff.1 h
      rw [flatMap_close, List.append_assoc]
      refine (List.Sublist.refl _).append ((ih hvs).trans ?_)
      simp [Mode.held]
    · rw [hstep] at h
      refine (ih h).trans ?_
      have happend := hsub.append (List.Sublist.refl rest)
      simpa using happend

theorem sublist_of_quoting (hus : ∀ d ∈ us, isQuoting d = false) (hc : isQuoting c = true)
    (h : splitFrom .plain word (us ++ c :: rest) = .ok ws) :
    (ws.flatMap String.toList).Sublist (word.getD [] ++ (us ++ rest)) := by
  induction us generalizing word ws with
  | nil =>
    obtain ⟨mode', word', hstep, hword⟩ := splitFrom_quoting word hc
    rw [List.nil_append, hstep] at h
    rw [← hword]
    exact sublist_of_splitFrom h
  | cons d us ih =>
    obtain ⟨hd, hus⟩ := List.forall_mem_cons.1 hus
    rw [List.cons_append] at h
    cases hsep : isSeparator d with
    | true =>
      rw [splitFrom_separator hsep] at h
      obtain ⟨vs, hvs, rfl⟩ := map_eq_ok_iff.1 h
      rw [flatMap_close]
      exact (List.Sublist.refl _).append ((ih hus hvs).cons d)
    | false =>
      rw [splitFrom_bare hsep hd] at h
      have hsub := ih hus h
      simpa using hsub

/-- Without quotes and backslashes no separator gets into a word. -/
theorem isSeparator_of_unquoted (hcs : ∀ c ∈ cs, isQuoting c = false)
    (hword : ∀ c ∈ word.getD [], isSeparator c = false)
    (h : splitFrom .plain word cs = .ok ws) :
    ∀ c ∈ ws.flatMap String.toList, isSeparator c = false := by
  induction cs generalizing word ws with
  | nil =>
    cases h
    simpa [flatMap_close] using hword
  | cons c rest ih =>
    obtain ⟨hq, hrest⟩ := List.forall_mem_cons.1 hcs
    cases hc : isSeparator c with
    | true =>
      rw [splitFrom_separator hc] at h
      obtain ⟨vs, hvs, rfl⟩ := map_eq_ok_iff.1 h
      rw [flatMap_close]
      exact List.forall_mem_append.2 ⟨hword, ih hrest (List.forall_mem_nil _) hvs⟩
    | false =>
      rw [splitFrom_bare hc hq] at h
      refine ih hrest ?_ h
      rw [getD_extend]
      exact List.forall_mem_append.2 ⟨hword, List.forall_mem_singleton.2 hc⟩

theorem splitFrom_append (hc : isSeparator c = true) (h : splitFrom mode word cs = .ok ws)
    (rest : List Char) :
    splitFrom mode word (cs ++ c :: rest) = (splitFrom .plain none rest).map (ws ++ ·) := by
  induction cs generalizing mode word ws with
  | nil =>
    cases mode with
    | plain =>
      cases h
      rw [List.nil_append, splitFrom_separator hc]
      congr 1
      funext vs
      exact close_append word [] vs
    | _ => cases h
  | cons d ds ih =>
    rw [List.cons_append]
    rcases splitFrom_cons mode word d with ⟨rfl, hd⟩ | ⟨mode', word', hstep, -⟩
    · rw [splitFrom_separator hd] at h ⊢
      obtain ⟨vs, hvs, rfl⟩ := map_eq_ok_iff.1 h
      rw [ih hvs]
      cases splitFrom .plain none rest with
      | ok us => exact congrArg Except.ok (close_append word vs us)
      | error p => rfl
    · rw [hstep] at h ⊢
      exact ih h

/-! ### Commands made of words -/

theorem split_append_blank (h : split a = .ok ws) (b : String) :
    split (a ++ " " ++ b) = (split b).map (ws ++ ·) := by
  have hchars : (a ++ " " ++ b).toList = a.toList ++ ' ' :: b.toList := by simp
  rw [split, hchars]
  exact splitFrom_append rfl h b.toList

theorem split_of_bare (hw : Bare w) (hne : w ≠ "") : split w = .ok [w] := by
  have hword : ∀ {cs us : List Char}, (∀ c ∈ cs, isSeparator c = false ∧ isQuoting c = false) →
      splitFrom .plain (some us) cs = .ok [String.ofList (us ++ cs)] := by
    intro cs
    induction cs with
    | nil =>
      intro us _
      rw [List.append_nil]
      rfl
    | cons c rest ih =>
      intro us hcs
      obtain ⟨⟨hc, hq⟩, hrest⟩ := List.forall_mem_cons.1 hcs
      rw [splitFrom_bare hc hq, extend, ih hrest]
      simp
  cases hchars : w.toList with
  | nil => exact absurd (String.toList_eq_nil_iff.1 hchars) hne
  | cons c rest =>
    rw [Bare, hchars] at hw
    obtain ⟨⟨hc, hq⟩, hrest⟩ := List.forall_mem_cons.1 hw
    rw [split, hchars, splitFrom_bare hc hq, extend, hword hrest]
    rw [Option.getD_none, List.nil_append, List.singleton_append, ← hchars, String.ofList_toList]

theorem split_intercalate {texts : List String} {groups : List (List String)}
    (h : List.Forall₂ (fun t ws => split t = .ok ws) texts groups) :
    split (" ".intercalate texts) = .ok groups.flatten := by
  induction h with
  | nil => rfl
  | @cons t ws texts groups ht htexts ih =>
    cases texts with
    | nil =>
      cases htexts
      rw [String.intercalate_singleton, ht, List.flatten_cons, List.flatten_nil, List.append_nil]
    | cons u texts =>
      rw [String.intercalate_cons_cons, split_append_blank ht, ih]
      rfl

theorem count_intercalate (hq : q ≠ ' ') (texts : List String) :
    (" ".intercalate texts).toList.count q = (texts.flatMap String.toList).count q := by
  induction texts with
  | nil => rfl
  | cons t texts ih =>
    cases texts with
    | nil => simp
    | cons u texts =>
      have hblank : " ".toList.count q = 0 := List.count_eq_zero.2 fun hmem =>
        hq (List.mem_singleton.1 hmem)
      rw [List.flatMap_cons, List.count_append, ← ih, String.intercalate_cons_cons,
        String.toList_append, String.toList_append, List.count_append, List.count_append, hblank,
        Nat.add_zero]

/-- The command that is made of the words, group by group. -/
def joined (groups : List (List String)) : String :=
  " ".intercalate (groups.map fun ws => " ".intercalate ws)

variable {groups : List (List String)}

theorem split_words (hbare : ∀ w ∈ ws, Bare w) (hne : ∀ w ∈ ws, w ≠ "") :
    split (" ".intercalate ws) = .ok ws := by
  have hsplit : List.Forall₂ (fun t vs => split t = .ok vs) ws (ws.map fun w => [w]) :=
    List.forall₂_map_right_iff.2 (List.forall₂_same.2 fun w hw =>
      split_of_bare (hbare w hw) (hne w hw))
  rw [split_intercalate hsplit, ← List.flatMap_def, List.flatMap_singleton']

theorem split_joined (hbare : ∀ w ∈ groups.flatten, Bare w) (hne : ∀ w ∈ groups.flatten, w ≠ "") :
    split (joined groups) = .ok groups.flatten := by
  have hgroup : ∀ ws ∈ groups, split (" ".intercalate ws) = .ok ws := by
    intro ws hws
    have hmem : ∀ w ∈ ws, w ∈ groups.flatten := fun w hw => List.mem_flatten.2 ⟨ws, hws, hw⟩
    exact split_words (fun w hw => hbare w (hmem w hw)) fun w hw => hne w (hmem w hw)
  exact split_intercalate (List.forall₂_map_left_iff.2 (List.forall₂_same.2 hgroup))

/-- If the words of the first group are bare they are the first words, whatever the
others are. -/
theorem split_joined_cons (hbare : ∀ w ∈ ws, Bare w) (hne : ∀ w ∈ ws, w ≠ "")
    (vs : List String) (groups : List (List String)) :
    split (joined (ws :: vs :: groups)) = (split (joined (vs :: groups))).map (ws ++ ·) := by
  rw [joined, List.map_cons, List.map_cons, String.intercalate_cons_cons,
    split_append_blank (split_words hbare hne)]
  rfl

theorem count_joined (hq : q ≠ ' ') (groups : List (List String)) :
    (joined groups).toList.count q = (groups.flatten.flatMap String.toList).count q := by
  rw [joined, count_intercalate hq]
  induction groups with
  | nil => rfl
  | cons ws groups ih =>
    rw [List.map_cons, List.flatMap_cons, List.count_append, ih, count_intercalate hq,
      List.flatten_cons, List.flatMap_append, List.count_append]

/-- A command that is split into the words it was made of has no quotes and no
backslashes. -/
theorem isQuoting_of_split_joined (h : split (joined groups) = .ok groups.flatten) :
    ∀ c ∈ (joined groups).toList, isQuoting c = false := by
  cases hfind : (joined groups).toList.find? isQuoting with
  | none =>
    intro c hc
    exact Bool.eq_false_iff.2 (List.find?_eq_none.1 hfind c hc)
  | some c =>
    -- the first of them would be missing from the words
    obtain ⟨hc, us, rest, hchars, hus⟩ := List.find?_eq_some_iff_append.1 hfind
    have hblank : c ≠ ' ' := by
      rintro rfl
      cases hc
    have hcount := count_joined hblank groups
    rw [split, hchars] at h
    have hsub := sublist_of_quoting (fun d hd => by simpa using hus d hd) hc h
    have hle := hsub.count_le c
    rw [← hcount, hchars] at hle
    simp only [Option.getD_none, List.nil_append, List.count_append, List.count_cons_self] at hle
    omega

/-- **Commands made of words.** A command that is made of words, none of them empty,
is split into them again exactly if they are all bare. -/
theorem split_joined_eq_ok_iff (hne : ∀ w ∈ groups.flatten, w ≠ "") :
    split (joined groups) = .ok groups.flatten ↔ ∀ w ∈ groups.flatten, Bare w := by
  refine ⟨fun h w hw c hc => ?_, fun hbare => split_joined hbare hne⟩
  have hquoting := isQuoting_of_split_joined h
  have hmem : c ∈ groups.flatten.flatMap String.toList := List.mem_flatMap.2 ⟨w, hw, hc⟩
  have hsep : isSeparator c = false :=
    isSeparator_of_unquoted hquoting (List.forall_mem_nil _) h c hmem
  refine ⟨hsep, hquoting c ?_⟩
  have hblank : c ≠ ' ' := by
    rintro rfl
    cases hsep
  rw [← List.count_pos_iff, count_joined hblank]
  exact List.count_pos_iff.2 hmem

end Words
end DiceRoller
