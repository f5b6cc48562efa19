/-
# Records

A record is written as its kind with the fields in parentheses, a comma and a
blank between two of them. Kinds and keys are plain: they hold none of the marks
that set the parts of a record apart. The value of a field is plain too, or is
itself written as a record, in which no parenthesis closes before its end. So a
record can be read from the left, each part up to the next mark, and the text
tells the kind, the keys and the values (`Record.text_inj`).

Key definitions: `Record`, `Record.Plain`, `Record.Value`, `Record.text`.
Key theorems: `append_cons_inj`, `append_inj_of_not_mem`,
`Record.Value.append_inj`, `Record.text_inj`, `Record.value_ofPlain`.
-/
import DiceRoller.Proofs.Text.Written

namespace DiceRoller

/-- A text is told from what follows it by the first character of a kind that it
does not hold. -/
theorem append_cons_inj {p : Char → Bool} {w w' r r' : List Char} {c c' : Char}
    (hw : ∀ d ∈ w, p d = false) (hw' : ∀ d ∈ w', p d = false) (hc : p c = true)
    (hc' : p c' = true) (h : w ++ c :: r = w' ++ c' :: r') : w = w' ∧ c = c' ∧ r = r' := by
  induction w generalizing w' with
  | nil =>
    cases w' with
    | nil => exact ⟨rfl, List.cons.inj h⟩
    | cons d w' =>
      obtain ⟨rfl, -⟩ := List.cons.inj h
      cases hc.symm.trans (hw' c List.mem_cons_self)
  | cons d w ih =>
    cases w' with
    | nil =>
      obtain ⟨rfl, -⟩ := List.cons.inj h
      cases hc'.symm.trans (hw d List.mem_cons_self)
    | cons d' w' =>
      obtain ⟨rfl, hrest⟩ := List.cons.inj h
      obtain ⟨rfl, hcr⟩ := ih (fun e he => hw e (List.mem_cons_of_mem _ he))
        (fun e he => hw' e (List.mem_cons_of_mem _ he)) hrest
      exact ⟨rfl, hcr⟩

/-- A text is told from what follows it by a character that it does not hold. -/
theorem append_inj_of_not_mem {w w' r r' : List Char} {c : Char} (hw : c ∉ w) (hw' : c ∉ w')
    (h : w ++ c :: r = w' ++ c :: r') : w = w' ∧ r = r' := by
  have hne : ∀ {v : List Char}, c ∉ v → ∀ d ∈ v, (d == c) = false := by
    intro v hv d hd
    exact beq_eq_false_iff_ne.2 fun heq => hv (heq ▸ hd)
  obtain ⟨hww', -, hrr'⟩ :=
    append_cons_inj (hne hw) (hne hw') (beq_self_eq_true c) (beq_self_eq_true c) h
  exact ⟨hww', hrr'⟩

namespace Record

/-! ### Plain texts and values -/

/-- The characters that set the parts of a record apart, and the end of a line. -/
def isMark (c : Char) : Bool := ['(', ')', ',', '=', '\n'].contains c

/-- No character of the text is a mark. -/
def Plain (w : String) : Prop := ∀ c ∈ w.toList, isMark c = false

instance (w : String) : Decidable (Plain w) :=
  List.decidableBAll (fun c => isMark c = false) w.toList

/-- Numbers are plain. -/
theorem plain_toString (n : Int) : Plain (toString n) := by
  intro c hc
  rcases minus_or_isDigit_of_mem_toString hc with rfl | hdigit
  · decide
  · rw [isMark, ← Bool.not_eq_true, List.contains_iff_mem]
    intro hmark
    simp only [List.mem_cons, List.not_mem_nil, or_false] at hmark
    rcases hmark with rfl | rfl | rfl | rfl | rfl <;> cases hdigit

theorem plain_toString_nat (n : Nat) : Plain (toString n) := plain_toString n

/-- What a field may have as its value: a plain text, or a record in which no
parenthesis closes before the end. -/
inductive Value : String → Prop
  | plain {w : String} (h : Plain w) : Value w
  | nested {kind body : String} (hkind : Plain kind) (hclose : ')' ∉ body.toList)
      (hline : '\n' ∉ body.toList) : Value (kind ++ "(" ++ body ++ ")")

namespace Value

variable {v v' : String} {c c' : Char} {r r' : List Char}

theorem toList_nested (kind body : String) (r : List Char) :
    (kind ++ "(" ++ body ++ ")").toList ++ r = kind.toList ++ '(' :: (body.toList ++ ')' :: r) := by
  simp

theorem line_not_mem (h : Value v) : '\n' ∉ v.toList := by
  have hplain : ∀ {w : String}, Plain w → '\n' ∉ w.toList := fun hw hmem => by
    cases hw _ hmem
  cases h with
  | plain hw => exact hplain hw
  | nested hkind _ hline =>
    exact not_mem_append (not_mem_append (not_mem_append (hplain hkind) (by decide)) hline)
      (by decide)

/-- A value is told from a comma or a closing parenthesis after it. -/
theorem append_inj (hv : Value v) (hv' : Value v') (hc : c = ',' ∨ c = ')')
    (hc' : c' = ',' ∨ c' = ')') (h : v.toList ++ c :: r = v'.toList ++ c' :: r') :
    v = v' ∧ c = c' ∧ r = r' := by
  have hmark : ∀ {d}, d = ',' ∨ d = ')' → isMark d = true := by
    rintro d (rfl | rfl) <;> decide
  have hopen : ∀ {d}, d = ',' ∨ d = ')' → d ≠ '(' := by
    rintro d (rfl | rfl) <;> decide
  cases hv with
  | plain hw =>
    cases hv' with
    | plain hw' =>
      obtain ⟨hv, hrest⟩ := append_cons_inj hw hw' (hmark hc) (hmark hc') h
      exact ⟨String.toList_inj.1 hv, hrest⟩
    | nested hkind' _ _ =>
      rw [toList_nested] at h
      exact absurd (append_cons_inj hw hkind' (hmark hc) (by decide) h).2.1 (hopen hc)
  | @nested kind body hkind hclose _ =>
    rw [toList_nested] at h
    cases hv' with
    | plain hw' =>
      exact absurd (append_cons_inj hkind hw' (by decide) (hmark hc') h).2.1.symm (hopen hc')
    | @nested kind' body' hkind' hclose' _ =>
      rw [toList_nested] at h
      obtain ⟨hk, -, hinner⟩ := append_cons_inj hkind hkind' (by decide) (by decide) h
      obtain ⟨hb, hrest⟩ := append_inj_of_not_mem hclose hclose' hinner
      obtain rfl := String.toList_inj.1 hk
      obtain rfl := String.toList_inj.1 hb
      exact ⟨rfl, List.cons.inj hrest⟩

end Value
end Record

/-! ### Records -/

/-- A kind with at least one field: a key and the text of a value. -/
structure Record where
  kind : String
  fields : List (String × String)
  plain_kind : Record.Plain kind
  plain_key : ∀ f ∈ fields, Record.Plain f.1
  value : ∀ f ∈ fields, Record.Value f.2
  ne_nil : fields ≠ []

namespace Record

variable {r r' : Record} {f f' : String × String} {fs fs' : List (String × String)}

/-- A field as it is written. -/
def field (f : String × String) : String := f.1 ++ "=" ++ f.2

/-- The fields with a comma and a blank between two of them. -/
def joined (fs : List (String × String)) : String := ", ".intercalate (fs.map field)

theorem joined_singleton (key value : String) : joined [(key, value)] = key ++ "=" ++ value :=
  String.intercalate_singleton

theorem joined_cons_cons (key value : String) (f : String × String) (fs : List (String × String)) :
    joined ((key, value) :: f :: fs) = key ++ "=" ++ value ++ ", " ++ joined (f :: fs) :=
  String.intercalate_cons_of_ne_nil (List.cons_ne_nil _ _)

/-- The record as it is written. -/
def text (r : Record) : String := r.kind ++ "(" ++ joined r.fields ++ ")"

/-- What is written after the first field. -/
def tail : List (String × String) → List Char
  | [] => [')']
  | f :: fs => ',' :: ' ' :: ((field f).toList ++ tail fs)

theorem toList_joined (f : String × String) (fs : List (String × String)) :
    (joined (f :: fs)).toList ++ [')'] = (field f).toList ++ tail fs := by
  induction fs generalizing f with
  | nil =>
    rw [joined_singleton]
    rfl
  | cons g fs ih =>
    rw [joined_cons_cons, String.toList_append, List.append_assoc, ih g, tail]
    simp [field]

theorem toList_text (h : r.fields = f :: fs) :
    r.text.toList = r.kind.toList ++ '(' :: ((field f).toList ++ tail fs) := by
  rw [text, h, String.toList_append, String.toList_append, String.toList_append,
    List.append_assoc, show ")".toList = [')'] from rfl, toList_joined, List.append_assoc]
  rfl

theorem tail_cases (fs : List (String × String)) :
    ∃ c r, tail fs = c :: r ∧ (c = ',' ∨ c = ')') := by
  cases fs with
  | nil => exact ⟨_, _, rfl, .inr rfl⟩
  | cons f fs => exact ⟨_, _, rfl, .inl rfl⟩

/-- A field is told from what is written after it. -/
theorem field_append_inj (hkey : Plain f.1) (hkey' : Plain f'.1) (hvalue : Value f.2)
    (hvalue' : Value f'.2) (h : (field f).toList ++ tail fs = (field f').toList ++ tail fs') :
    f = f' ∧ tail fs = tail fs' := by
  have hfield : ∀ g : String × String, ∀ r : List Char,
      (field g).toList ++ r = g.1.toList ++ '=' :: (g.2.toList ++ r) := by
    intro g r
    simp [field]
  rw [hfield, hfield] at h
  obtain ⟨hk, -, hrest⟩ := append_cons_inj hkey hkey' (by decide) (by decide) h
  obtain ⟨c, r, htail, hc⟩ := tail_cases fs
  obtain ⟨c', r', htail', hc'⟩ := tail_cases fs'
  rw [htail, htail'] at hrest
  obtain ⟨hv, rfl, rfl⟩ := hvalue.append_inj hvalue' hc hc' hrest
  exact ⟨Prod.ext (String.toList_inj.1 hk) hv, htail.trans htail'.symm⟩

theorem tail_inj (hkeys : ∀ f ∈ fs, Plain f.1) (hkeys' : ∀ f ∈ fs', Plain f.1)
    (hvalues : ∀ f ∈ fs, Value f.2) (hvalues' : ∀ f ∈ fs', Value f.2) (h : tail fs = tail fs') :
    fs = fs' := by
  induction fs generalizing fs' with
  | nil =>
    cases fs' with
    | nil => rfl
    | cons f' fs' => cases h
  | cons f fs ih =>
    cases fs' with
    | nil => cases h
    | cons f' fs' =>
      obtain ⟨rfl, hrest⟩ := field_append_inj (hkeys f List.mem_cons_self)
        (hkeys' f' List.mem_cons_self) (hvalues f List.mem_cons_self)
        (hvalues' f' List.mem_cons_self) (List.cons.inj (List.cons.inj h).2).2
      rw [ih (fun g hg => hkeys g (List.mem_cons_of_mem _ hg))
        (fun g hg => hkeys' g (List.mem_cons_of_mem _ hg))
        (fun g hg => hvalues g (List.mem_cons_of_mem _ hg))
        (fun g hg => hvalues' g (List.mem_cons_of_mem _ hg)) hrest]

/-- The text of a record tells its kind and its fields. -/
theorem text_inj (h : r.text = r'.text) : r.kind = r'.kind ∧ r.fields = r'.fields := by
  obtain ⟨f, fs, hfs⟩ := List.exists_cons_of_ne_nil r.ne_nil
  obtain ⟨f', fs', hfs'⟩ := List.exists_cons_of_ne_nil r'.ne_nil
  have hkeys := r.plain_key
  have hkeys' := r'.plain_key
  have hvalues := r.value
  have hvalues' := r'.value
  have hchars := congrArg String.toList h
  rw [toList_text hfs, toList_text hfs'] at hchars
  rw [hfs] at hkeys hvalues ⊢
  rw [hfs'] at hkeys' hvalues' ⊢
  obtain ⟨hkind, -, hfields⟩ := append_cons_inj r.plain_kind r'.plain_kind (by decide) (by decide)
    hchars
  refine ⟨String.toList_inj.1 hkind, ?_⟩
  -- the first field has no comma before it, the others do
  exact tail_inj hkeys hkeys' hvalues hvalues'
    (by rw [tail, tail, hfields])

/-! ### Records of plain values -/

/-- The keys and the values are all plain. -/
def PlainFields (fs : List (String × String)) : Prop := ∀ f ∈ fs, Plain f.1 ∧ Plain f.2

theorem PlainFields.nil : PlainFields [] := fun _ hf => absurd hf List.not_mem_nil

theorem PlainFields.cons {key value : String} (hkey : Plain key) (hvalue : Plain value)
    (hfs : PlainFields fs) : PlainFields ((key, value) :: fs) :=
  List.forall_mem_cons.2 ⟨⟨hkey, hvalue⟩, hfs⟩

/-- The record of a kind with such fields. -/
def ofPlain (kind : String) (fs : List (String × String)) (hkind : Plain kind)
    (hfs : PlainFields fs) (hne : fs ≠ []) : Record :=
  ⟨kind, fs, hkind, fun f hf => (hfs f hf).1, fun f hf => .plain (hfs f hf).2, hne⟩

theorem text_ofPlain {kind : String} (hkind : Plain kind) (hfs : PlainFields fs) (hne : fs ≠ []) :
    (ofPlain kind fs hkind hfs hne).text = kind ++ "(" ++ joined fs ++ ")" := rfl

/-- Such a record can itself be a value. -/
theorem value_ofPlain {kind : String} (hkind : Plain kind) (hfs : PlainFields fs) (hne : fs ≠ []) :
    Value (ofPlain kind fs hkind hfs hne).text := by
  have hbody : ∀ c, isMark c = true → c ≠ ',' → c ≠ '=' → c ∉ (joined fs).toList := by
    intro c hc hcomma heq
    have hnot : ∀ {w : String}, Plain w → c ∉ w.toList := by
      intro w hw hmem
      cases hc.symm.trans (hw c hmem)
    have hblank : c ≠ ' ' := by
      rintro rfl
      cases hc
    refine not_mem_intercalate (by simpa using ⟨hcomma, hblank⟩) fun w hw => ?_
    obtain ⟨f, hf, rfl⟩ := List.mem_map.1 hw
    exact not_mem_append (not_mem_append (hnot (hfs f hf).1) (by simpa using heq)) (hnot (hfs f hf).2)
  exact .nested hkind (hbody _ (by decide) (by decide) (by decide))
    (hbody _ (by decide) (by decide) (by decide))

/-- A record is written on one line. -/
theorem line_not_mem_text (r : Record) : '\n' ∉ r.text.toList := by
  have hplain : ∀ {w : String}, Plain w → '\n' ∉ w.toList := fun hw => (Value.plain hw).line_not_mem
  refine not_mem_append (not_mem_append (not_mem_append (hplain r.plain_kind) (by decide)) ?_)
    (by decide)
  refine not_mem_intercalate (by decide) fun w hw => ?_
  obtain ⟨f, hf, rfl⟩ := List.mem_map.1 hw
  exact not_mem_append (not_mem_append (hplain (r.plain_key f hf)) (by decide))
    (r.value f hf).line_not_mem

end Record
end DiceRoller
