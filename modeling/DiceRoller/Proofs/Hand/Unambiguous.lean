/-
# The text of a hand tells what was rolled

The text of a dice term and its hand is read back in two steps. It is a row of
words with blanks between them: the term, the words of the labels, and the
rolls with the value (`Hand.Shown.eq_words`). The first words of the labels
differ between the kinds and no label begins like the rolls do, so the words
fall apart into the labels in one way only (`Label.words_inj`). The rolls are a
row of entries with commas between them, in which the rolls dropped are the ones
in parentheses (`Hand.entry_inj`).

So two hands with the same text agree in everything but the samples of a pick,
which the text does not show (`Options.display_eq_iff`).

Key definitions: `Label.words`, `Hand.Agrees`, `Hand.Shown`.
Key theorems: `Label.words_inj`, `DiceTerm.text_inj`, `Hand.agrees_of_marked`,
`Options.display_eq_iff`.
-/
import DiceRoller.Expression.Evaluation
import DiceRoller.Proofs.Hand.Balance
import DiceRoller.Proofs.Hand.Label
import DiceRoller.Proofs.Term.Form
import DiceRoller.Proofs.Text.Written

namespace DiceRoller

/-! ### Labels and their words -/

theorem Threshold.text_inj {t t' : Threshold} (h : t.text = t'.text) : t = t' := by
  have hword : ∀ n : Int, maxWord ≠ toString n :=
    ne_toString (by decide : 'm' ∈ maxWord.toList) (by decide) (by decide)
  cases t with
  | max =>
    cases t' with
    | max => rfl
    | atLeast n => exact absurd h (hword n)
  | atLeast n =>
    cases t' with
    | max => exact absurd h.symm (hword n)
    | atLeast n' => rw [toString_int_inj h]

namespace Label

/-- What the first word of a tag begins with. -/
def front : Label → String
  | dropLowest _ => "DL"
  | dropHighest _ => "DH"
  | reroll _ _ => "rr<="
  | explode _ _ => "explode@"
  | pick => "adv/dis"

/-- What follows in the first word. -/
def back : Label → String
  | dropLowest count => toString count
  | dropHighest count => toString count
  | reroll lte _ => toString lte
  | explode threshold _ => threshold.text
  | pick => ""

/-- The words after the first one. -/
def more : Label → List String
  | reroll _ count => ["x" ++ toString count]
  | explode _ count => ["x" ++ toString count]
  | _ => []

/-- The words of the tag. -/
def words (l : Label) : List String := (l.front ++ l.back) :: l.more

theorem text_eq_words (l : Label) : l.text = " ".intercalate l.words := by
  have one : ∀ a b : String, a ++ b = " ".intercalate [a ++ b] := fun a b =>
    String.intercalate_singleton.symm
  have two : ∀ a b c : String, a ++ b ++ " x" ++ c = " ".intercalate [a ++ b, "x" ++ c] := by
    intro a b c
    rw [String.intercalate_cons_of_ne_nil (List.cons_ne_nil _ _), String.intercalate_singleton]
    show a ++ b ++ (" " ++ "x") ++ c = a ++ b ++ " " ++ ("x" ++ c)
    simp only [String.append_assoc]
  cases l with
  | reroll lte count => exact two _ _ _
  | explode threshold count => exact two _ _ _
  | pick => simp [text, words, front, back, more]
  | _ => exact one _ _

/-- The kind of a label shows in the first two characters. -/
theorem take_front (l : Label) : (l.front ++ l.back).toList.take 2 = l.front.toList.take 2 := by
  have hlen : 2 ≤ l.front.toList.length := by cases l <;> simp [front]
  rw [String.toList_append, List.take_append_of_le_length hlen]

theorem words_append_inj {l l' : Label} {ws ws' : List String}
    (h : l.words ++ ws = l'.words ++ ws') : l = l' ∧ ws = ws' := by
  rw [words, words, List.cons_append, List.cons_append] at h
  obtain ⟨hfirst, hmore⟩ := List.cons.inj h
  have hfront : l.front.toList.take 2 = l'.front.toList.take 2 := by
    rw [← take_front, hfirst, take_front]
  cases l <;> cases l' <;> simp [front] at hfront
  case dropLowest m n =>
    obtain rfl := toString_nat_inj ((String.append_right_inj _).1 hfirst)
    exact ⟨rfl, hmore⟩
  case dropHighest m n =>
    obtain rfl := toString_nat_inj ((String.append_right_inj _).1 hfirst)
    exact ⟨rfl, hmore⟩
  case reroll lte m lte' n =>
    obtain ⟨hcount, hws⟩ := List.cons.inj hmore
    obtain rfl := toString_int_inj ((String.append_right_inj _).1 hfirst)
    obtain rfl := toString_nat_inj ((String.append_right_inj _).1 hcount)
    exact ⟨rfl, hws⟩
  case explode th m th' n =>
    obtain ⟨hcount, hws⟩ := List.cons.inj hmore
    obtain rfl := Threshold.text_inj ((String.append_right_inj _).1 hfirst)
    obtain rfl := toString_nat_inj ((String.append_right_inj _).1 hcount)
    exact ⟨rfl, hws⟩
  case pick => exact ⟨rfl, hmore⟩

theorem blank_not_mem {l : Label} {w : String} (hw : w ∈ l.words) : ' ' ∉ w.toList := by
  have hnat : ∀ n : Nat, ' ' ∉ (toString n).toList := not_mem_toString_nat (by decide)
  have hint : ∀ n : Int, ' ' ∉ (toString n).toList := not_mem_toString (by decide) (by decide)
  have hcount : ∀ n : Nat, ' ' ∉ ("x" ++ toString n).toList := fun n =>
    not_mem_append (by decide) (hnat n)
  have hfront : ' ' ∉ l.front.toList := by cases l <;> simp [front]
  have hback : ' ' ∉ l.back.toList := by
    cases l with
    | dropLowest n => exact hnat n
    | dropHighest n => exact hnat n
    | reroll lte n => exact hint lte
    | explode threshold n =>
      cases threshold with
      | max => simp [back, Threshold.text, Threshold.maxWord]
      | atLeast m => exact hint m
    | pick => simp [back]
  rcases List.mem_cons.1 hw with rfl | hw
  · exact not_mem_append hfront hback
  · cases l with
    | reroll lte n => rw [List.mem_singleton.1 hw]; exact hcount n
    | explode threshold n => rw [List.mem_singleton.1 hw]; exact hcount n
    | _ => cases hw

/-- No label begins like the rolls do. -/
theorem front_ne (l : Label) (r : String) : l.front ++ l.back ≠ "[" ++ r := by
  intro h
  have hchars := congrArg String.toList h
  rw [String.toList_append, String.toList_append] at hchars
  cases l <;> simp [front] at hchars

theorem words_inj {ls ls' : List Label} {r r' : String}
    (h : ls.flatMap words ++ ["[" ++ r] = ls'.flatMap words ++ ["[" ++ r']) :
    ls = ls' ∧ r = r' := by
  induction ls generalizing ls' with
  | nil =>
    cases ls' with
    | nil => exact ⟨rfl, (String.append_right_inj _).1 (List.cons.inj h).1⟩
    | cons l' ls' => exact absurd (List.cons.inj h).1.symm (front_ne l' r)
  | cons l ls ih =>
    cases ls' with
    | nil => exact absurd (List.cons.inj h).1 (front_ne l r')
    | cons l' ls' =>
      rw [List.flatMap_cons, List.flatMap_cons, List.append_assoc, List.append_assoc] at h
      obtain ⟨rfl, hrest⟩ := words_append_inj h
      obtain ⟨rfl, hr⟩ := ih hrest
      exact ⟨rfl, hr⟩

/-- Tags between two words are words between them. -/
theorem intercalate_words (w last : String) (ls : List Label) :
    " ".intercalate (w :: (ls.flatMap words ++ [last])) =
      w ++ String.join (ls.map fun l => " " ++ l.text) ++ " " ++ last := by
  induction ls generalizing w with
  | nil =>
    show " ".intercalate [w, last] = w ++ "" ++ " " ++ last
    rw [String.intercalate_cons_of_ne_nil (List.cons_ne_nil _ _), String.intercalate_singleton,
      String.append_empty]
  | cons l ls ih =>
    have hne : ls.flatMap words ++ [last] ≠ [] := List.append_ne_nil_of_right_ne_nil _ (List.cons_ne_nil _ _)
    have hrest := ih (w ++ " " ++ l.text)
    rw [String.intercalate_cons_of_ne_nil hne] at hrest
    have hl : l.words ≠ [] := List.cons_ne_nil _ _
    rw [List.flatMap_cons, List.append_assoc,
      String.intercalate_cons_of_ne_nil (List.append_ne_nil_of_right_ne_nil _ hne),
      String.intercalate_append_of_ne_nil hl hne, ← text_eq_words, List.map_cons, String.join_cons]
    simpa only [String.append_assoc] using hrest

end Label

/-! ### The text of a term -/

theorem signChar_factor (s : Sign) : signChar s.factor = s.char := by cases s <;> rfl

theorem ConstantTerm.toList_text (t : ConstantTerm) :
    t.text.toList = signChar t.sign :: (toString t.value).toList := by
  rw [text, String.toList_append, Char.toString_eq_singleton, String.toList_singleton,
    List.singleton_append]

namespace DiceTerm

/-- The text of the term behind its sign. -/
def spelling (t : DiceTerm) : Spelling :=
  if t.drop = 0 then .dice (toString t.number).toList (toString t.sides).toList
  else .dropDice (toString t.number).toList (toString t.sides).toList (toString t.drop).toList

theorem isRun_toString (n : Nat) : IsRun (toString n).toList where
  ne_nil := by
    rw [toList_toString_nat]
    exact Nat.toDigits_ne_nil
  isDigit _ hc := isDigit_of_mem_toString hc

theorem proper_spelling (t : DiceTerm) : t.spelling.Proper := by
  unfold spelling
  split
  · exact Spelling.proper_dice (isRun_toString _) (isRun_toString _)
  · exact Spelling.proper_dropDice (isRun_toString _) (isRun_toString _) (isRun_toString _)

theorem toList_text (t : DiceTerm) : t.text.toList = signChar t.sign :: t.spelling.chars := by
  have hd : "d".toList = ['d'] := rfl
  have hdl : "dl".toList = ['d', 'l'] := rfl
  unfold text spelling
  split <;> simp [Spelling.chars, hd, hdl]

theorem signChar_inj {s s' : Int} (hs : s = 1 ∨ s = -1) (hs' : s' = 1 ∨ s' = -1)
    (h : signChar s = signChar s') : s = s' := by
  rcases hs with rfl | rfl <;> rcases hs' with rfl | rfl <;>
    first | rfl | exact absurd h (by decide)

theorem text_inj {t t' : DiceTerm} (hs : t.sign = 1 ∨ t.sign = -1)
    (hs' : t'.sign = 1 ∨ t'.sign = -1) (h : t.text = t'.text) : t = t' := by
  have hchars := congrArg String.toList h
  rw [toList_text, toList_text] at hchars
  obtain ⟨hsign, hbody⟩ := List.cons.inj hchars
  have hspell : t.spelling = t'.spelling := by
    have hread := Spelling.read?_chars t.proper_spelling
    rw [hbody, Spelling.read?_chars t'.proper_spelling] at hread
    exact (Option.some.inj hread).symm
  have hnat : ∀ {m n : Nat}, (toString m).toList = (toString n).toList → m = n := fun h =>
    toString_nat_inj (String.toList_inj.1 h)
  have hfactor := signChar_inj hs hs' hsign
  obtain ⟨sign, number, sides, drop, _, _, _⟩ := t
  obtain ⟨sign', number', sides', drop', _, _, _⟩ := t'
  obtain rfl : sign = sign' := hfactor
  unfold spelling at hspell
  split at hspell <;> split at hspell
  · next h0 h0' =>
    obtain ⟨hn, hm⟩ := Spelling.dice.inj hspell
    obtain rfl := hnat hn
    obtain rfl := hnat hm
    obtain rfl : drop = drop' := Eq.trans h0 (Eq.symm h0')
    rfl
  · cases hspell
  · cases hspell
  · obtain ⟨hn, hm, hk⟩ := Spelling.dropDice.inj hspell
    obtain rfl := hnat hn
    obtain rfl := hnat hm
    obtain rfl := hnat hk
    rfl

end DiceTerm

/-! ### The text of the rolls -/

namespace Hand

variable {h h' : Hand}

theorem entry_inj {p q : Int × Bool} (heq : entry p = entry q) : p = q := by
  have hparen : ∀ m n : Int, "(" ++ toString m ++ ")" ≠ toString n := by
    intro m
    have hmem : '(' ∈ ("(" ++ toString m ++ ")").toList := by
      rw [String.toList_append, String.toList_append]
      simp
    exact ne_toString hmem (by decide) (by decide)
  obtain ⟨m, a⟩ := p
  obtain ⟨n, b⟩ := q
  cases a <;> cases b
  · obtain rfl : m = n := toString_int_inj heq
    rfl
  · exact absurd heq.symm (hparen n m)
  · exact absurd heq (hparen m n)
  · obtain rfl : m = n :=
      toString_int_inj ((String.append_right_inj _).1 ((String.append_left_inj _).1 heq))
    rfl

theorem not_mem_entry {c : Char} (hopen : c ∉ "(".toList) (hclose : c ∉ ")".toList)
    (hminus : c ≠ '-') (hd : c.isDigit = false) (p : Int × Bool) : c ∉ (entry p).toList := by
  have hnum := not_mem_toString hminus hd p.1
  unfold entry
  split
  · exact not_mem_append (not_mem_append hopen hnum) hclose
  · exact hnum

theorem marked_fst (h : Hand) : h.marked.map Prod.fst = h.rolls := by rw [marked_eq, mark_fst]

/-- The text of the rolls tells which of them are dropped, if there are any. -/
theorem annotated_inj (hne : h.rolls ≠ []) (hne' : h'.rolls ≠ [])
    (heq : h.annotated = h'.annotated) : h.marked = h'.marked := by
  have hentries : ∀ g : Hand, g.rolls ≠ [] → g.marked.map entry ≠ [] := by
    intro g hg hnil
    rw [List.map_eq_nil_iff] at hnil
    rw [← g.marked_fst, hnil] at hg
    exact hg rfl
  have hcomma : ∀ g : Hand, ∀ w ∈ g.marked.map entry, ',' ∉ w.toList := by
    intro g w hw
    obtain ⟨p, -, rfl⟩ := List.mem_map.1 hw
    exact not_mem_entry (by decide) (by decide) (by decide) (by decide) p
  have hall := intercalate_inj ',' (hcomma h) (hcomma h') (hentries h hne)
    (hentries h' hne') heq
  exact (List.map_inj_right fun _ _ => entry_inj).1 hall

/-- Two hands agree in everything but their samples. -/
structure Agrees (h h' : Hand) : Prop where
  rolls : h.rolls = h'.rolls
  dropped : ∀ v, h.dropped.count v = h'.dropped.count v
  kept : h.kept = h'.kept
  value : h.value = h'.value
  rerolled : h.rerolled = h'.rerolled
  exploded : h.exploded = h'.exploded
  tags : h.tags = h'.tags

/-- What is dropped follows from the rolls and what is kept of them. -/
theorem Trimmed.count_dropped {low high : Nat} (ht : h.Trimmed low high) (v : Int) :
    h.dropped.count v = h.rolls.count v - h.kept.count v := by
  have hkept := h.count_kept v
  have hle := ht.count_dropped_le v
  omega

theorem agrees_of_marked {low high low' high' : Nat} (ht : h.Trimmed low high)
    (ht' : h'.Trimmed low' high') (hmarked : h.marked = h'.marked)
    (hrerolled : h.rerolled = h'.rerolled) (hexploded : h.exploded = h'.exploded)
    (htags : h.tags = h'.tags) : h.Agrees h' := by
  have hrolls : h.rolls = h'.rolls := by rw [← h.marked_fst, hmarked, h'.marked_fst]
  have hkept : h.kept = h'.kept := by rw [kept, hmarked, kept]
  refine ⟨hrolls, fun v => ?_, hkept, ?_, hrerolled, hexploded, htags⟩
  · rw [ht.count_dropped, ht'.count_dropped, hrolls, hkept]
  · rw [value, hkept, value]

theorem marked_congr (hrolls : h.rolls = h'.rolls)
    (hdropped : ∀ v, h.dropped.count v = h'.dropped.count v) : h.marked = h'.marked := by
  rw [marked, h'.marked_eq, ← hrolls]
  exact markBy_eq_mark (fun v => by rw [Counts.count_ofList, hdropped v]) h.rolls

theorem Agrees.text_eq (ha : h.Agrees h') (term : String) : h.text term = h'.text term := by
  rw [text, heading, annotated, ha.tags, marked_congr ha.rolls ha.dropped, ha.value, text, heading,
    annotated]

/-! ### The whole text -/

/-- The text of a hand has the labels, in order, and each of them exactly when
there is something to tell. -/
structure Shown (o : Options) (t : DiceTerm) (h : Hand) (labels : List Label) (x : String) :
    Prop where
  text_eq : x = t.text ++ String.join (labels.map fun l => " " ++ l.text) ++ " [" ++ h.annotated
    ++ "]=" ++ toString h.value
  tags_eq : h.tags = labels.map Label.entry
  order : (labels.map Label.key).Pairwise (· < ·)
  dropLowest : ∀ n, .dropLowest n ∈ labels ↔ 0 < n ∧ o.dropLowest = some ⟨n⟩
  dropHighest : ∀ n, .dropHighest n ∈ labels ↔ 0 < n ∧ o.dropHighest = some ⟨n⟩
  reroll : ∀ n, (∃ lte, .reroll lte n ∈ labels) ↔ 0 < n ∧ h.rerolled = n
  rerollLte : ∀ lte n, .reroll lte n ∈ labels → o.reroll = some ⟨lte⟩
  explode : ∀ n, (∃ threshold, .explode threshold n ∈ labels) ↔ 0 < n ∧ h.exploded = n
  explodeThreshold : ∀ threshold n, .explode threshold n ∈ labels →
    ∃ e, o.explode = some e ∧ e.threshold = threshold
  pick : .pick ∈ labels ↔ h.samples ≠ []

variable {o o' : Options} {t t' : DiceTerm} {labels labels' : List Label} {x x' : String}

theorem elim_count_iff {part : Option DropCount} {n : Nat} :
    0 < part.elim 0 (·.count) ∧ part.elim 0 (·.count) = n ↔ 0 < n ∧ part = some ⟨n⟩ := by
  cases part with
  | none => simp
  | some d =>
    obtain ⟨count⟩ := d
    simp
    omega

theorem Labelled.shown
    (hl : h.Labelled o (o.dropLowest.elim 0 (·.count)) (o.dropHighest.elim 0 (·.count))) :
    h.Shown o t (h.labels o (o.dropLowest.elim 0 (·.count)) (o.dropHighest.elim 0 (·.count)))
      (h.text t.text) where
  text_eq := by
    rw [text, heading, hl.tags_eq, List.map_map]
    rfl
  tags_eq := hl.tags_eq
  order := labels_pairwise _ _ _ _
  dropLowest n := mem_labels.trans elim_count_iff
  dropHighest n := mem_labels.trans elim_count_iff
  reroll n := by
    simp only [mem_labels]
    constructor
    · rintro ⟨lte, r, -, hpos, -, rfl⟩
      exact ⟨hpos, rfl⟩
    · rintro ⟨hpos, rfl⟩
      obtain ⟨r, hr⟩ := hl.reroll hpos
      exact ⟨r.lte, r, hr, hpos, rfl, rfl⟩
  rerollLte lte n hmem := by
    obtain ⟨r, hr, -, rfl, -⟩ := mem_labels.1 hmem
    exact hr
  explode n := by
    simp only [mem_labels]
    constructor
    · rintro ⟨threshold, e, -, hpos, -, rfl⟩
      exact ⟨hpos, rfl⟩
    · rintro ⟨hpos, rfl⟩
      obtain ⟨e, he⟩ := hl.explode hpos
      exact ⟨e.threshold, e, he, hpos, rfl, rfl⟩
  explodeThreshold threshold n hmem := by
    obtain ⟨e, he, -, hth, -⟩ := mem_labels.1 hmem
    exact ⟨e, he, hth⟩
  pick := mem_labels

namespace Shown

theorem eq_words (hs : h.Shown o t labels x) : x = " ".intercalate
    (t.text :: (labels.flatMap Label.words ++ ["[" ++ (h.annotated ++ "]=" ++ toString h.value)])) := by
  rw [Label.intercalate_words, hs.text_eq]
  have hbracket : " [" = " " ++ "[" := rfl
  simp only [hbracket, String.append_assoc]

theorem blank_not_mem_term (t : DiceTerm) : ' ' ∉ t.text.toList := by
  rw [t.toList_text]
  intro hmem
  rcases List.mem_cons.1 hmem with hsign | hbody
  · unfold signChar at hsign
    split at hsign <;> cases hsign
  · exact absurd (Spelling.isAlphabet_of_mem t.proper_spelling _ hbody) (by decide)

theorem blank_not_mem_words (h : Hand) (t : DiceTerm) (labels : List Label) :
    ∀ w ∈ t.text :: (labels.flatMap Label.words ++
      ["[" ++ (h.annotated ++ "]=" ++ toString h.value)]), ' ' ∉ w.toList := by
  have hentries : ∀ w ∈ h.marked.map entry, ' ' ∉ w.toList := by
    intro w hw
    obtain ⟨p, -, rfl⟩ := List.mem_map.1 hw
    exact not_mem_entry (by decide) (by decide) (by decide) (by decide) p
  intro w hw
  rcases List.mem_cons.1 hw with rfl | hw
  · exact blank_not_mem_term t
  · rcases List.mem_append.1 hw with hw | hw
    · obtain ⟨l, -, hw⟩ := List.mem_flatMap.1 hw
      exact Label.blank_not_mem hw
    · rw [List.mem_singleton.1 hw]
      have hvalue := not_mem_toString (c := ' ') (by decide) (by decide) h.value
      exact not_mem_append (by decide)
        (not_mem_append (not_mem_append (not_mem_intercalate (by decide) hentries) (by decide)) hvalue)

/-- The display of the rolls ends at the first closing bracket. -/
theorem annotated_inj (heq : h.annotated ++ "]=" ++ toString h.value =
    h'.annotated ++ "]=" ++ toString h'.value) : h.annotated = h'.annotated := by
  have hbracket : "]=".toList = [']', '='] := rfl
  have hannotated : ']' ∉ h.annotated.toList := by
    refine not_mem_intercalate (by decide) fun w hw => ?_
    obtain ⟨p, -, rfl⟩ := List.mem_map.1 hw
    exact not_mem_entry (by decide) (by decide) (by decide) (by decide) p
  have hvalue : ']' ∉ '=' :: (toString h.value).toList :=
    List.not_mem_cons_of_ne_of_not_mem (by decide)
      (not_mem_toString (by decide) (by decide) h.value)
  have hchars := congrArg String.toList heq
  simp only [String.toList_append, hbracket, List.append_assoc, List.cons_append,
    List.nil_append] at hchars
  exact String.toList_inj.1 ((List.append_cons_inj_of_notMem hannotated hvalue).1 hchars).1

theorem inj (hs : h.Shown o t labels x) (hs' : h'.Shown o' t' labels' x) :
    t.text = t'.text ∧ labels = labels' ∧ h.annotated = h'.annotated := by
  have hwords := intercalate_inj ' ' (blank_not_mem_words h t labels)
    (blank_not_mem_words h' t' labels') (List.cons_ne_nil _ _) (List.cons_ne_nil _ _)
    (hs.eq_words.symm.trans hs'.eq_words)
  obtain ⟨hterm, hrest⟩ := List.cons.inj hwords
  obtain ⟨hlabels, hrolls⟩ := Label.words_inj hrest
  exact ⟨hterm, hlabels, annotated_inj hrolls⟩

theorem counts_eq (hs : h.Shown o t labels x) (hs' : h'.Shown o' t' labels x) :
    h.rerolled = h'.rerolled ∧ h.exploded = h'.exploded := by
  have hsame : ∀ {m n : Nat}, (∀ k, 0 < k ∧ m = k ↔ 0 < k ∧ n = k) → m = n := by
    intro m n hk
    have hm := hk m
    have hn := hk n
    omega
  exact ⟨hsame fun k => (hs.reroll k).symm.trans (hs'.reroll k),
    hsame fun k => (hs.explode k).symm.trans (hs'.explode k)⟩

end Shown
end Hand

/-! ### Hands that have been rolled -/

namespace Options

variable {o o₁ o₂ : Options} {t t₁ t₂ : DiceTerm} {s s' s₁ s₁' s₂ s₂' : Source} {h h₁ h₂ : Hand}
  {x x₁ x₂ : String}

theorem shown_of_roll (hroll : o.rollTerm t s = .ok h s') (hx : (Part.dice t h).display = .ok x) :
    ∃ labels, h.Shown o t labels x := by
  obtain ⟨vs, hsteps, -⟩ := rollTerm_of_ok hroll
  obtain ⟨-, rfl⟩ := Numeral.publish_eq_ok_iff.1 hx
  exact ⟨_, (labelled_of_steps hsteps).shown⟩

theorem rolls_ne_nil (hroll : o.rollTerm t s = .ok h s') : h.rolls ≠ [] := by
  obtain ⟨vs, hsteps, -⟩ := rollTerm_of_ok hroll
  intro hnil
  have hlen := (balanced_of_steps hsteps).length_rolls
  rw [hnil, List.length_nil] at hlen
  have hone := t.one_le_number
  omega

/-- The texts of two hands that have been rolled are the same exactly if the
terms are the same and the hands agree. -/
theorem display_eq_iff (hroll₁ : o₁.rollTerm t₁ s₁ = .ok h₁ s₁')
    (hroll₂ : o₂.rollTerm t₂ s₂ = .ok h₂ s₂') (hsign₁ : t₁.sign = 1 ∨ t₁.sign = -1)
    (hsign₂ : t₂.sign = 1 ∨ t₂.sign = -1) (hx₁ : (Part.dice t₁ h₁).display = .ok x₁)
    (hx₂ : (Part.dice t₂ h₂).display = .ok x₂) :
    (x₁ = x₂ ↔ t₁ = t₂ ∧ h₁.Agrees h₂) ∧ (∃ labels, h₁.Shown o₁ t₁ labels x₁) ∧
      ∃ labels, h₂.Shown o₂ t₂ labels x₂ := by
  obtain ⟨labels₁, hshown₁⟩ := shown_of_roll hroll₁ hx₁
  obtain ⟨labels₂, hshown₂⟩ := shown_of_roll hroll₂ hx₂
  refine ⟨⟨?_, ?_⟩, ⟨labels₁, hshown₁⟩, labels₂, hshown₂⟩
  · rintro rfl
    obtain ⟨hterm, rfl, hrolls⟩ := hshown₁.inj hshown₂
    obtain ⟨hrerolled, hexploded⟩ := hshown₁.counts_eq hshown₂
    have hmarked := Hand.annotated_inj (rolls_ne_nil hroll₁) (rolls_ne_nil hroll₂) hrolls
    obtain ⟨_, hsteps₁, -⟩ := rollTerm_of_ok hroll₁
    obtain ⟨_, hsteps₂, -⟩ := rollTerm_of_ok hroll₂
    exact ⟨DiceTerm.text_inj hsign₁ hsign₂ hterm,
      Hand.agrees_of_marked (trimmed_of_steps hsteps₁) (trimmed_of_steps hsteps₂) hmarked
        hrerolled hexploded (hshown₁.tags_eq.trans hshown₂.tags_eq.symm)⟩
  · rintro ⟨rfl, hagrees⟩
    obtain ⟨-, rfl⟩ := Numeral.publish_eq_ok_iff.1 hx₁
    obtain ⟨-, rfl⟩ := Numeral.publish_eq_ok_iff.1 hx₂
    exact hagrees.text_eq t₁.text

/-- The same rolls with and without a die that was rerolled. -/
theorem display_eq_iff_rerolled :
    let o₁ : Options := ⟨none, none, some ⟨1⟩, none, none, none⟩
    let t : DiceTerm := ⟨-1, 3, 6, 0, by decide, by decide, by decide⟩
    ∃ h₁ h₂ s₁ s₂, o₁.rollTerm t (.scripted (.ofList [1, 4, 2, 5])) = .ok h₁ s₁ ∧
      Options.rollTerm {} t (.scripted (.ofList [5, 4, 2])) = .ok h₂ s₂ ∧
      (Part.dice t h₁).display = .ok "-3d6 rr<=1 x1 [5,4,2]=11" ∧
      (Part.dice t h₂).display = .ok "-3d6 [5,4,2]=11" ∧ ¬ h₁.Agrees h₂ := by
  intro o₁ t
  obtain ⟨h₁, hsteps₁, rfl⟩ : ∃ h, Modifier.Steps t (o₁.modifiersFor t) {} [1, 4, 2, 5] h ∧
      h = ⟨[5, 4, 2], [], [], 1, 0, [(3, "rr<=1 x1")]⟩ := by
    rw [modifiersFor_eq]
    exact ⟨_, .cons (.roll rfl) (.cons (.reroll (.again rfl (.stay rfl (.stay rfl .nil)))
      (.tagged (by decide) (by decide +kernel))) .nil), by decide +kernel⟩
  have hsteps₂ : Modifier.Steps t (Options.modifiersFor {} t) {} [5, 4, 2]
      ⟨[5, 4, 2], [], [], 0, 0, []⟩ := steps_plain rfl rfl
  have hdisplay : ∀ (rerolled : Nat) (tags : Tags),
      (Part.dice t ⟨[5, 4, 2], [], [], rerolled, 0, tags⟩).display =
        .ok ("-3d6" ++ String.join (tags.map fun t => " " ++ t.2) ++ " [" ++ "5,4,2" ++ "]="
          ++ "11") := by
    intro rerolled tags
    have hvalue : Hand.value ⟨[5, 4, 2], [], [], rerolled, 0, tags⟩ = 11 :=
      Hand.value_of_dropped_nil rfl
    have hannotated : Hand.annotated ⟨[5, 4, 2], [], [], rerolled, 0, tags⟩ = "5,4,2" := by
      rw [Hand.annotated, Hand.marked_eq]
      show ",".intercalate ((Hand.mark [5, 4, 2] []).map Hand.entry) = "5,4,2"
      decide +kernel
    have hterm : t.text = "-3d6" := by decide +kernel
    refine Numeral.publish_eq_ok_iff.2 ⟨?_, ?_⟩
    · rw [Part.textNumbers, Hand.textNumbers, hvalue]
      show ([3, 6, 0, 5, 4, 2, 11] : List Int).all Numeral.writable = true
      decide +kernel
    · rw [Part.text, Hand.text, Hand.heading, hannotated, hvalue, hterm]
      rfl
  have hroll₁ := (rollTerm_consumes hsteps₁ (by decide)).full [] []
  have hroll₂ := (rollTerm_consumes hsteps₂ (by decide)).full [] []
  have hiff := (display_eq_iff hroll₁ hroll₂ (.inr rfl) (.inr rfl) (hdisplay 1 _) (hdisplay 0 _)).1
  exact ⟨_, _, _, _, hroll₁, hroll₂, hdisplay 1 _, hdisplay 0 _,
    fun hagrees => absurd (hiff.2 ⟨rfl, hagrees⟩) (by decide)⟩

end Options
end DiceRoller
