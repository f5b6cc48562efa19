/-
# Drafts: units described by data of any kind

A unit may be described by data before anyone has looked at them. A draft of
dice is refused as the dice themselves are, and in the same order, but its
numbers need only be ordered with whole numbers. What is then done with it
shows whether the other data fit: the sign must be ordered to be shown, and
what the unit is worth must have a product with it.

Units of whole numbers have drafts (`SignedUnit.draft`), which are refused,
shown and compared exactly as the units are.

Key definitions: `Draft`, `Draft.check`, `Draft.record`, `Draft.text`,
`Draft.signedValue?`, `Draft.same`, `SignedUnit.draft`.
Key theorems: `Draft.checkDice_number`, `SignedUnit.draft_record`,
`SignedUnit.draft_text`, `SignedUnit.draft_same`.
-/
import DiceRoller.Datum.Product
import DiceRoller.Fault.Notice
import DiceRoller.Term

namespace DiceRoller

/-- A unit as it is described. -/
inductive Draft where
  | alone (sign : Datum)
  | constant (sign value : Datum)
  | dice (sign number sides drop : Datum)
  deriving Repr

namespace Draft

/-! ### Checking -/

/-- A fault is announced. -/
def announce {α : Type} (x : Except Fault α) : Except Notice α := x.mapError Fault.notice

/-- Refuses with a notice of the kind, which is made from data. -/
def refuse {α : Type} (kind : Kind) (about : List Datum) : Except Notice α := do
  throw (← announce (Notice.make kind about))

/-- Refuses dice that make no sense. -/
def checkDice (number sides drop : Datum) : Except Notice Unit := do
  if ← announce (number.lessThan (.number 1)) then refuse .invalidDiceCount [number]
  else if ← announce (sides.lessThan (.number 2)) then refuse .invalidSideCount [sides]
  else if ← announce (Datum.atMost (.number 0) drop) then
    if ← announce (drop.lessThan number) then return ()
    else refuse .invalidDropCount [drop, number]
  else refuse .invalidDropCount [drop, number]

/-- Refuses a draft that makes no sense. -/
def check : Draft → Except Notice Unit
  | dice _ number sides drop => checkDice number sides drop
  | _ => .ok ()

/-! ### Texts -/

/-- The sign as it is described. -/
def sign : Draft → Datum
  | alone sign => sign
  | constant sign _ => sign
  | dice sign _ _ _ => sign

/-- The character that shows the sign, which must be ordered. -/
def signText (d : Draft) : Except Fault String := do
  return if ← d.sign.lessThan (.number 0) then "-" else "+"

/-- The kind of the draft, as messages and records name it. -/
def kindName : Draft → String
  | alone _ => "Term"
  | constant _ _ => "FlatTerm"
  | dice _ _ _ _ => "DiceTerm"

/-- The fields of the draft. -/
def record : Draft → String
  | alone sign => "Term(sign=" ++ sign.shown ++ ")"
  | constant sign value => "FlatTerm(sign=" ++ sign.shown ++ ", value=" ++ value.shown ++ ")"
  | dice sign number sides drop =>
    "DiceTerm(sign=" ++ sign.shown ++ ", number=" ++ number.shown ++ ", sides=" ++ sides.shown
      ++ ", inline_drop_lowest=" ++ drop.shown ++ ")"

/-- The numbers in the record. -/
def recordNumbers : Draft → List Int
  | alone sign => sign.numbers
  | constant sign value => sign.numbers ++ value.numbers
  | dice sign number sides drop =>
    sign.numbers ++ number.numbers ++ sides.numbers ++ drop.numbers

/-- The fields of the draft, if its numbers may be written. -/
def writeRecord (d : Draft) : Except Fault String := Numeral.publish d.recordNumbers d.record

/-- What stands behind the sign in the text of a term, and the numbers in it;
a sign that stands alone has no such text. -/
def body? : Draft → Option (String × List Int)
  | alone _ => none
  | constant _ value => some (value.plain, value.numbers)
  | dice _ number sides drop =>
    some (number.plain ++ "d" ++ sides.plain ++ (if drop.holds then "dl" ++ drop.plain else ""),
      number.numbers ++ sides.numbers ++ drop.numbers)

/-- The draft as it is displayed: a sign by its fields, a term as it is spelt. -/
def text (d : Draft) : Except Fault String :=
  match d.body? with
  | none => d.writeRecord
  | some (body, numbers) => do
    let sign ← d.signText
    (Numeral.publish numbers body).map (sign ++ ·)

/-! ### Values -/

/-- What the draft contributes to the total if it is worth so much. -/
def worth (d : Draft) (value : Datum) : Except Fault Datum := d.sign.product value

/-- What a constant contributes to the total; other drafts say nothing. -/
def signedValue? : Draft → Option (Except Fault Datum)
  | constant sign value => some (sign.product value)
  | _ => none

/-- Whether two drafts are of one kind and agree in all fields. -/
def same : Draft → Draft → Bool
  | alone s, alone t => s.same t
  | constant s v, constant t w => s.same t && v.same w
  | dice s n m k, dice t n' m' k' => s.same t && n.same n' && m.same m' && k.same k'
  | _, _ => false

/-- Whether a draft is equal to itself. -/
def sameAsItself : Draft → Bool
  | alone s => s.sameAsItself
  | constant s v => s.sameAsItself && v.sameAsItself
  | dice s n m k =>
    s.sameAsItself && n.sameAsItself && m.sameAsItself && k.sameAsItself

/-! ### Drafts of whole numbers -/

@[simp] theorem announce_ok {α : Type} (a : α) : announce (.ok a) = .ok a := rfl

@[simp] theorem announce_error {α : Type} (f : Fault) :
    announce (.error f : Except Fault α) = .error f.notice := rfl

theorem refuse_diceCount {α : Type} (n : Int) :
    (refuse .invalidDiceCount [.number n] : Except Notice α) =
      .error (Fault.invalidDiceCount n).notice := rfl

theorem refuse_sideCount {α : Type} (n : Int) :
    (refuse .invalidSideCount [.number n] : Except Notice α) =
      .error (Fault.invalidSideCount n).notice := rfl

theorem refuse_dropCount {α : Type} (m n : Int) :
    (refuse .invalidDropCount [.number m, .number n] : Except Notice α) =
      .error (Numeral.raise (.invalidDropCount m n)).notice := by
  have write (k : Int) : (Datum.number k).write =
      if Numeral.writable k then .ok (toString k) else .error .numeralTooLongToWrite := by
    simp [Datum.write, Datum.numbers, Datum.plain, Datum.shown, Numeral.publish]
  have make : Notice.make .invalidDropCount [.number m, .number n] =
      if Numeral.writable m ∧ Numeral.writable n then .ok (Fault.invalidDropCount m n).notice
      else .error .numeralTooLongToWrite := by
    by_cases hm : Numeral.writable m = true <;> by_cases hn : Numeral.writable n = true <;>
      simp [Notice.make, Kind.signature?, Kind.signature?.of, Signature.check, Signature.most,
        write, hm, hn, bind, Except.bind]
    rfl
  rw [refuse, make]
  by_cases h : Numeral.writable m ∧ Numeral.writable n
  · simp [h, Numeral.raise, Fault.numbers]
    rfl
  · simp [h, Numeral.raise, Fault.numbers]
    rfl

/-- A draft of whole numbers is refused exactly as the dice are. -/
theorem checkDice_number (sign number sides drop : Int) :
    checkDice (.number number) (.number sides) (.number drop) =
      announce ((DiceTerm.make sign number sides drop).map fun _ => ()) := by
  simp only [checkDice, DiceTerm.make, Datum.lessThan_number, Datum.atMost_number, announce_ok,
    refuse_diceCount, refuse_sideCount, refuse_dropCount, bind, Except.bind, decide_eq_true_eq]
  by_cases h1 : number < 1
  · simp only [h1, if_true]
    rfl
  by_cases h2 : sides < 2
  · simp only [h1, h2, if_true, if_false]
    rfl
  by_cases h3 : 0 ≤ drop ∧ drop < number
  · have h : 1 ≤ number ∧ 2 ≤ sides ∧ 0 ≤ drop ∧ drop < number := by omega
    simp only [h1, h2, h3.1, h3.2, h, if_true, if_false, dif_pos, and_self]
    rfl
  · have h : ¬(1 ≤ number ∧ 2 ≤ sides ∧ 0 ≤ drop ∧ drop < number) := by omega
    simp only [h1, h2, h, if_false, dif_neg, not_false_eq_true]
    by_cases h4 : 0 ≤ drop
    · have h5 : ¬drop < number := by omega
      simp only [h4, h5, if_true, if_false]
      rfl
    · simp only [h4, if_false]
      rfl

end Draft

/-- The draft of dice. -/
def DiceTerm.draft (t : DiceTerm) : Draft :=
  .dice (.number t.sign) (.number t.number) (.number t.sides) (.number t.drop)

/-- The draft of a unit. -/
def SignedUnit.draft : SignedUnit → Draft
  | alone sign => .alone (.number sign)
  | term (.constant t) => .constant (.number t.sign) (.number t.value)
  | term (.dice t) => t.draft

namespace SignedUnit

theorem draft_record (u : SignedUnit) : u.draft.record = u.record := by
  match u with
  | alone _ => rfl
  | term (.constant _) => rfl
  | term (.dice _) => rfl

theorem draft_signText (u : SignedUnit) : u.draft.signText = .ok (signChar u.sign).toString := by
  have sign : u.draft.sign = .number u.sign := by
    match u with
    | alone _ => rfl
    | term (.constant _) => rfl
    | term (.dice _) => rfl
  unfold Draft.signText signChar
  rw [sign, Datum.lessThan_number]
  by_cases h : u.sign < 0 <;> simp only [h, if_true, if_false] <;> rfl

theorem draft_text (u : SignedUnit) : u.draft.text = Numeral.publish u.textNumbers u.text := by
  have sign := draft_signText u
  match u with
  | alone _ => rfl
  | term (.constant t) =>
    simp only [Draft.text, draft, Draft.body?] at sign ⊢
    rw [sign]
    simp only [textNumbers, text, Term.textNumbers, Term.text, ConstantTerm.textNumbers,
      ConstantTerm.text, bind, Except.bind, Numeral.publish_append, Datum.numbers, Datum.plain,
      Datum.shown, SignedUnit.sign, Term.sign]
  | term (.dice t) =>
    simp only [Draft.text, draft, DiceTerm.draft, Draft.body?] at sign ⊢
    rw [sign]
    simp only [textNumbers, text, Term.textNumbers, Term.text, DiceTerm.textNumbers,
      DiceTerm.text, bind, Except.bind, Numeral.publish_append, Datum.numbers, Datum.plain,
      Datum.shown, SignedUnit.sign, Term.sign]
    have figures (n : Nat) : toString (n : Int) = toString n := rfl
    by_cases h : t.drop = 0 <;>
      simp only [h, figures, Datum.holds, bne_iff_ne, ne_eq, Int.natCast_eq_zero, if_true, if_false,
        String.append_assoc, List.cons_append, List.nil_append, not_true_eq_false,
        not_false_eq_true]

/-- Drafts of units are the same exactly if the units are. -/
theorem draft_same (u v : SignedUnit) : u.draft.same v.draft = decide (u = v) := by
  match u, v with
  | alone _, alone _ => simp [draft, Draft.same]
  | alone _, term (.constant _) => simp [draft, Draft.same]
  | alone _, term (.dice _) => simp [draft, DiceTerm.draft, Draft.same]
  | term (.constant _), alone _ => simp [draft, Draft.same]
  | term (.constant s), term (.constant t) =>
    obtain ⟨s1, s2⟩ := s
    obtain ⟨t1, t2⟩ := t
    simp [draft, Draft.same]
  | term (.constant _), term (.dice _) => simp [draft, DiceTerm.draft, Draft.same]
  | term (.dice _), alone _ => simp [draft, DiceTerm.draft, Draft.same]
  | term (.dice _), term (.constant _) => simp [draft, DiceTerm.draft, Draft.same]
  | term (.dice s), term (.dice t) =>
    obtain ⟨s1, s2, s3, s4⟩ := s
    obtain ⟨t1, t2, t3, t4⟩ := t
    simp only [draft, DiceTerm.draft, Draft.same, Datum.same_number, Int.natCast_inj,
      term.injEq, Term.dice.injEq, DiceTerm.mk.injEq, Bool.decide_and, Bool.and_assoc]

end SignedUnit
end DiceRoller
