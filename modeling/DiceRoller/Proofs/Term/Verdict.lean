/-
# What becomes of a line

A line is freed of its blanks, lowered, and freed of one sign in front of it;
what is left is its body. A body is spelt in at most one shape
(`Shape.read?_unique`), so it does not matter in which order the shapes are
tried (`Term.readAmong_of_perm`).

`Term.Verdict` says what becomes of a body, without regard to how it is read:
each of its rules names one outcome and all that it depends on. The rules
exclude each other and leave no body out, and reading a line gives what they say
(`Term.read_eq_iff`).

Key definitions: `Term.readAmong`, `Spelling.amounts`, `Term.SpeltAs`,
`Term.Verdict`.
Key theorems: `Shape.read?_unique`, `Term.readAmong_of_perm`,
`Term.Verdict.readBody_eq`, `Term.exists_verdict`, `Term.read_eq_iff`.
-/
import DiceRoller.Proofs.Term.Form

namespace DiceRoller

/-! ### The order of the shapes -/

/-- The shape of a spelling. -/
def Spelling.shape : Spelling → Shape
  | percentile => .percentile
  | dropDice _ _ _ => .dropDice
  | dice _ _ => .dice
  | singleDie _ => .singleDie
  | constant _ => .constant

namespace Shape

variable {shape shape' : Shape} {s : List Char} {sp sp' : Spelling}

theorem shape_of_read? (h : shape.read? s = some sp) : sp.shape = shape := by
  cases shape with
  | percentile =>
    rw [read?] at h
    split at h <;> cases h
    rfl
  | dropDice =>
    rw [read?] at h
    split at h
    · split at h
      · split at h <;> cases h
        rfl
      · cases h
    · cases h
  | dice =>
    rw [read?] at h
    split at h
    · split at h <;> cases h
      rfl
    · cases h
  | singleDie =>
    simp only [read?] at h
    split at h
    · split at h <;> cases h
      rfl
    · cases h
  | constant =>
    rw [read?] at h
    split at h <;> cases h
    rfl

theorem read?_unique (h : shape.read? s = some sp) (h' : shape'.read? s = some sp') :
    shape = shape' ∧ sp = sp' := by
  have hread : ∀ {shape : Shape} {sp : Spelling}, shape.read? s = some sp →
      Spelling.read? s = some sp :=
    fun h => Spelling.read?_eq_some_iff.2 (read?_sound h)
  obtain rfl : sp = sp' := Option.some.inj ((hread h).symm.trans (hread h'))
  exact ⟨(shape_of_read? h).symm.trans (shape_of_read? h'), rfl⟩

theorem mem_all (shape : Shape) : shape ∈ Shape.all := by
  cases shape <;> decide

/-- Shapes that are tried in any order find the spelling that there is. -/
theorem findSome?_read? {shapes : List Shape} (hall : ∀ shape, shape ∈ shapes) (s : List Char) :
    shapes.findSome? (·.read? s) = Spelling.read? s := by
  cases hread : Spelling.read? s with
  | none =>
    have hnone := List.findSome?_eq_none_iff.1 hread
    exact List.findSome?_eq_none_iff.2 fun shape _ => hnone shape (mem_all shape)
  | some sp =>
    obtain ⟨shape, -, hshape⟩ := List.exists_of_findSome?_eq_some hread
    cases hfind : shapes.findSome? (·.read? s) with
    | none =>
      have hnone := List.findSome?_eq_none_iff.1 hfind shape (hall shape)
      cases hnone.symm.trans hshape
    | some sp' =>
      obtain ⟨shape', -, hshape'⟩ := List.exists_of_findSome?_eq_some hfind
      rw [(read?_unique hshape hshape').2]

end Shape

namespace Term

/-- The term that a line spells, if the shapes are tried in the given order. -/
def readAmong (shapes : List Shape) (line : List Char) : Except Fault Term :=
  let (sign, body) := splitSign (Lower.text (Blank.remove line))
  if body = [] then .error .emptyTerm
  else match shapes.findSome? (·.read? body) with
    | some spelling => spelling.term sign
    | none => .error (.unrecognizedTerm (String.ofList body))

theorem readAmong_all : readAmong Shape.all = read := rfl

theorem readAmong_of_perm {shapes : List Shape} (hperm : shapes.Perm Shape.all)
    (line : List Char) : readAmong shapes line = read line := by
  have hall : ∀ shape, shape ∈ shapes := fun shape => hperm.mem_iff.2 shape.mem_all
  simp only [readAmong, Shape.findSome?_read? hall]
  rfl

end Term

/-! ### What is spelt -/

/-- The numbers with which a term is spelt. -/
inductive Amounts where
  | dice (number sides drop : Nat)
  | constant (value : Nat)
  deriving DecidableEq, Repr

/-- The numbers of a spelling; those that are not written are a matter of its
shape. -/
def Spelling.amounts : Spelling → Amounts
  | percentile => .dice 1 100 0
  | dropDice number sides drop =>
    .dice (Nat.ofDigitChars 10 number 0) (Nat.ofDigitChars 10 sides 0)
      (Nat.ofDigitChars 10 drop 0)
  | dice number sides => .dice (Nat.ofDigitChars 10 number 0) (Nat.ofDigitChars 10 sides 0) 0
  | singleDie sides => .dice 1 (Nat.ofDigitChars 10 sides 0) 0
  | constant value => .constant (Nat.ofDigitChars 10 value 0)

/-- The term with the numbers, if they make one. -/
def Amounts.term (sign : Sign) : Amounts → Except Fault Term
  | dice number sides drop => do
    let t ← DiceTerm.make sign.factor number sides drop
    return .dice t
  | constant value => .ok (.constant ⟨sign.factor, value⟩)

theorem ofDigits_of_le {digits : List Char} (h : digits.length ≤ Numeral.digitLimit) :
    Numeral.ofDigits digits = .ok (Nat.ofDigitChars 10 digits 0) :=
  Form.ofDigits_eq_ok_iff.2 ⟨h, rfl⟩

theorem ofDigits_of_lt {digits : List Char} (h : Numeral.digitLimit < digits.length) :
    Numeral.ofDigits digits = .error (.numeralTooLongToRead digits.length) := by
  rw [Numeral.ofDigits, if_neg (Nat.not_le.2 h)]

namespace Spelling

variable {sp : Spelling} {sign : Sign} {g : List Char}

/-- The first run of digits that is too long to be read. -/
def longGroup? (sp : Spelling) : Option (List Char) :=
  sp.groups.find? fun g => Numeral.digitLimit < g.length

theorem longGroup?_eq_none_iff :
    sp.longGroup? = none ↔ ∀ g ∈ sp.groups, g.length ≤ Numeral.digitLimit := by
  simp [longGroup?, List.find?_eq_none]

theorem term_of_short (h : ∀ g ∈ sp.groups, g.length ≤ Numeral.digitLimit) :
    sp.term sign = sp.amounts.term sign := by
  cases sp <;> simp only [groups, List.forall_mem_cons] at h
  case percentile => rfl
  case dropDice number sides drop =>
    rw [term, exceptBind_of_ok (ofDigits_of_le h.1), exceptBind_of_ok (ofDigits_of_le h.2.1),
      exceptBind_of_ok (ofDigits_of_le h.2.2.1)]
    rfl
  case dice number sides =>
    rw [term, exceptBind_of_ok (ofDigits_of_le h.1), exceptBind_of_ok (ofDigits_of_le h.2.1)]
    rfl
  case singleDie sides =>
    rw [term, exceptBind_of_ok (ofDigits_of_le h.1)]
    rfl
  case constant value =>
    rw [term, exceptBind_of_ok (ofDigits_of_le h.1)]
    rfl

/-- Reading the runs from left to right ends at the first one that is too
long. -/
theorem term_of_long (h : sp.longGroup? = some g) :
    sp.term sign = .error (.numeralTooLongToRead g.length) := by
  -- one run at a time: it is the one looked for, or it is read and passed over
  have hstep : ∀ {d : List Char} {ds : List (List Char)} {next : Nat → Except Fault Term},
      (d :: ds).find? (fun g => Numeral.digitLimit < g.length) = some g →
      (∀ n, ds.find? (fun g => Numeral.digitLimit < g.length) = some g →
        next n = .error (.numeralTooLongToRead g.length)) →
      (Numeral.ofDigits d >>= next) = .error (.numeralTooLongToRead g.length) := by
    intro d ds next hfind hnext
    by_cases hd : Numeral.digitLimit < d.length
    · rw [List.find?_cons, decide_eq_true hd] at hfind
      cases hfind
      exact exceptBind_eq_error_iff.2 (.inl (ofDigits_of_lt hd))
    · rw [List.find?_cons, decide_eq_false hd] at hfind
      rw [exceptBind_of_ok (ofDigits_of_le (Nat.not_lt.1 hd))]
      exact hnext _ hfind
  cases sp with
  | percentile => cases h
  | dropDice number sides drop =>
    exact hstep h fun n h => hstep h fun m h => hstep h fun k h => nomatch h
  | dice number sides => exact hstep h fun n h => hstep h fun m h => nomatch h
  | singleDie sides => exact hstep h fun m h => nomatch h
  | constant value => exact hstep h fun k h => nomatch h

theorem writable_amounts {n m k : Nat} (hp : sp.Proper)
    (h : ∀ g ∈ sp.groups, g.length ≤ Numeral.digitLimit) (ha : sp.amounts = .dice n m k) :
    Numeral.writable n = true ∧ Numeral.writable k = true := by
  have hgroup : ∀ g ∈ sp.groups, Numeral.writable (Nat.ofDigitChars 10 g 0 : Nat) = true :=
    fun g hg => DigitRun.writable_value ⟨g, hp g hg, h g hg⟩
  have hone : Numeral.writable (1 : Nat) = true := writable_of_lt (by decide)
  cases sp with
  | percentile =>
    cases ha
    exact ⟨hone, writable_zero⟩
  | dropDice number sides drop =>
    cases ha
    exact ⟨hgroup _ (by simp [groups]), hgroup _ (by simp [groups])⟩
  | dice number sides =>
    cases ha
    exact ⟨hgroup _ (by simp [groups]), writable_zero⟩
  | singleDie sides =>
    cases ha
    exact ⟨hone, writable_zero⟩
  | constant value => cases ha

end Spelling

/-! ### The rules -/

namespace Term

/-- The body is spelt in some shape with these numbers, and each run of digits
in it can be read. -/
def SpeltAs (body : List Char) (amounts : Amounts) : Prop :=
  ∃ shape sp, Shape.read? shape body = some sp ∧
    (∀ g ∈ sp.groups, g.length ≤ Numeral.digitLimit) ∧ sp.amounts = amounts

/-- What becomes of a body with a sign. -/
inductive Verdict (sign : Sign) (body : List Char) : Except Fault Term → Prop
  | empty : body = [] → Verdict sign body (.error .emptyTerm)
  | unrecognized : body ≠ [] → (∀ shape, Shape.read? shape body = none) →
      Verdict sign body (.error (.unrecognizedTerm (String.ofList body)))
  /-- Of the runs of digits that are too long the first one is named. -/
  | tooLong {shape : Shape} {sp : Spelling} {g : List Char} : shape.read? body = some sp →
      sp.longGroup? = some g → Verdict sign body (.error (.numeralTooLongToRead g.length))
  | diceCount {n m k : Nat} : SpeltAs body (.dice n m k) → n < 1 →
      Verdict sign body (.error (.invalidDiceCount n))
  | sideCount {n m k : Nat} : SpeltAs body (.dice n m k) → 1 ≤ n → m < 2 →
      Verdict sign body (.error (.invalidSideCount m))
  | dropCount {n m k : Nat} : SpeltAs body (.dice n m k) → 1 ≤ n → 2 ≤ m → n ≤ k →
      Verdict sign body (.error (.invalidDropCount k n))
  | dice {t : DiceTerm} : SpeltAs body (.dice t.number t.sides t.drop) → t.sign = sign.factor →
      Verdict sign body (.ok (.dice t))
  | constant {k : Nat} : SpeltAs body (.constant k) →
      Verdict sign body (.ok (.constant ⟨sign.factor, k⟩))

variable {sign : Sign} {body line : List Char} {amounts : Amounts} {n m k : Nat}
  {outcome : Except Fault Term}

theorem readBody_of_read? {shape : Shape} {sp : Spelling} (h : shape.read? body = some sp) :
    readBody sign body = sp.term sign := by
  have hsound := Shape.read?_sound h
  have hne : body ≠ [] := by
    rw [← hsound.2]
    exact Spelling.chars_ne_nil hsound.1
  rw [readBody, if_neg hne, Spelling.read?_eq_some_iff.2 hsound]

theorem SpeltAs.readBody_eq (h : SpeltAs body amounts) :
    readBody sign body = amounts.term sign := by
  obtain ⟨shape, sp, hread, hshort, rfl⟩ := h
  rw [readBody_of_read? hread, Spelling.term_of_short hshort]

theorem SpeltAs.raise_eq (h : SpeltAs body (.dice n m k)) :
    Numeral.raise (.invalidDropCount k n) = .invalidDropCount k n := by
  obtain ⟨shape, sp, hread, hshort, hamounts⟩ := h
  obtain ⟨hn, hk⟩ := Spelling.writable_amounts (Shape.read?_sound hread).1 hshort hamounts
  have hnumbers : (Fault.invalidDropCount k n).numbers.all Numeral.writable = true := by
    rw [Fault.numbers, List.all_cons, hk, Bool.true_and]
    exact all_writable_singleton hn
  rw [Numeral.raise, if_pos hnumbers]

theorem Verdict.readBody_eq (h : Verdict sign body outcome) : readBody sign body = outcome := by
  have hrefused : ∀ {n m k : Nat} {f : Fault}, SpeltAs body (.dice n m k) →
      DiceTerm.make sign.factor n m k = .error f → readBody sign body = .error f := by
    intro n m k f hspelt hmake
    rw [hspelt.readBody_eq]
    exact exceptBind_eq_error_iff.2 (.inl hmake)
  cases h with
  | empty hnil => rw [readBody, if_pos hnil]
  | unrecognized hne hnone =>
    have hread : Spelling.read? body = none :=
      List.findSome?_eq_none_iff.2 fun shape _ => hnone shape
    rw [readBody, if_neg hne, hread]
  | tooLong hread hlong => rw [readBody_of_read? hread, Spelling.term_of_long hlong]
  | diceCount hspelt hn =>
    refine hrefused hspelt ?_
    rw [DiceTerm.make, if_pos (by omega)]
  | sideCount hspelt hn hm =>
    refine hrefused hspelt ?_
    rw [DiceTerm.make, if_neg (by omega), if_pos (by omega)]
  | dropCount hspelt hn hm hk =>
    refine hrefused hspelt ?_
    rw [DiceTerm.make, if_neg (by omega), if_neg (by omega), dif_neg (by omega), hspelt.raise_eq]
  | dice hspelt hsign =>
    rw [hspelt.readBody_eq]
    exact exceptBind_of_ok (DiceTerm.make_eq_ok_iff.2 ⟨hsign, rfl, rfl, rfl⟩)
  | constant hspelt => rw [hspelt.readBody_eq, Amounts.term]

/-- Numbers that are spelt make a term, or one of the faults. -/
theorem SpeltAs.exists_verdict (h : SpeltAs body amounts) :
    ∃ outcome, Verdict sign body outcome := by
  cases amounts with
  | constant k => exact ⟨_, .constant h⟩
  | dice n m k =>
    by_cases hn : n < 1
    · exact ⟨_, .diceCount h hn⟩
    rw [Nat.not_lt] at hn
    by_cases hm : m < 2
    · exact ⟨_, .sideCount h hn hm⟩
    rw [Nat.not_lt] at hm
    by_cases hk : n ≤ k
    · exact ⟨_, .dropCount h hn hm hk⟩
    rw [Nat.not_le] at hk
    exact ⟨_, .dice (t := ⟨sign.factor, n, m, k, hn, hm, hk⟩) h rfl⟩

theorem exists_verdict (sign : Sign) (body : List Char) : ∃ outcome, Verdict sign body outcome := by
  by_cases hnil : body = []
  · exact ⟨_, .empty hnil⟩
  by_cases hnone : ∀ shape, Shape.read? shape body = none
  · exact ⟨_, .unrecognized hnil hnone⟩
  obtain ⟨shape, hshape⟩ := not_forall.1 hnone
  obtain ⟨sp, hread⟩ := Option.ne_none_iff_exists'.1 hshape
  cases hlong : sp.longGroup? with
  | some g => exact ⟨_, .tooLong hread hlong⟩
  | none =>
    have hshort := Spelling.longGroup?_eq_none_iff.1 hlong
    exact SpeltAs.exists_verdict ⟨shape, sp, hread, hshort, rfl⟩

theorem readBody_eq_iff : readBody sign body = outcome ↔ Verdict sign body outcome := by
  constructor
  · rintro rfl
    obtain ⟨outcome, hverdict⟩ := exists_verdict sign body
    rwa [hverdict.readBody_eq]
  · exact Verdict.readBody_eq

/-- **What becomes of a line.** A text is spelt in at most one shape, so the
shapes may be tried in any order. Reading a line gives what the rules say of its
sign and its body. -/
theorem read_eq_iff (line : List Char) :
    let text := splitSign (Lower.text (Blank.remove line))
    (∀ (s : List Char) (shape shape' : Shape) (sp sp' : Spelling), shape.read? s = some sp →
      shape'.read? s = some sp' → shape = shape') ∧
    (∀ shapes : List Shape, shapes.Perm Shape.all → readAmong shapes line = read line) ∧
    ∀ outcome, read line = outcome ↔ Verdict text.1 text.2 outcome :=
  ⟨fun _ _ _ _ _ h h' => (Shape.read?_unique h h').1,
    fun _ hperm => readAmong_of_perm hperm line, fun _ => readBody_eq_iff⟩

/-- Too many of the dice are dropped, whatever the order of the shapes. -/
theorem read_eq_iff_dropped :
    Shape.all.reverse.Perm Shape.all ∧
      readAmong Shape.all.reverse " - 2d6DL3 ".toList = .error (.invalidDropCount 3 2) ∧
      SpeltAs "2d6dl3".toList (.dice 2 6 3) ∧
      Shape.dropDice.read? "2d6dl3".toList = some (.dropDice ['2'] ['6'] ['3']) := by
  have hread : Shape.dropDice.read? "2d6dl3".toList = some (.dropDice ['2'] ['6'] ['3']) := by
    decide
  have hspelt : SpeltAs "2d6dl3".toList (.dice 2 6 3) :=
    ⟨.dropDice, _, hread, by decide, by decide⟩
  have hperm := List.reverse_perm Shape.all
  obtain ⟨-, horder, hrules⟩ := read_eq_iff " - 2d6DL3 ".toList
  have hbody : splitSign (Lower.text (Blank.remove " - 2d6DL3 ".toList)) =
      (.minus, "2d6dl3".toList) := by decide +kernel
  refine ⟨hperm, ?_, hspelt, hread⟩
  rw [horder _ hperm, hrules, hbody]
  exact .dropCount hspelt (by decide) (by decide) (by decide)

end Term
end DiceRoller
