/-
# Templates: texts with a place for a number

A directive in a template is replaced by a number. It starts with a percent
sign and ends with a letter that says how the number is written; between them
may stand, in this order, flags, a least width, a precision after a point, and
a letter that means nothing. The width or the precision may be a star, and then
the number is taken for it. Two percent signs stand for one.

A template takes exactly one number. The first problem from the left is the
one that is reported; that no place is left for the number shows at the end.

Key definitions: `Template.Directive`, `Template.Conversion`,
`Template.Directive.write`, `Template.Directive.read`, `Template.fill`.
Key theorem: `Template.Directive.read_length`.
-/
import DiceRoller.Fault
import DiceRoller.Text.Figures

namespace DiceRoller
namespace Template

/-! ### Directives -/

/-- How a number is laid out. -/
structure Directive where
  /-- Blanks fill the width behind the number. -/
  left : Bool := false
  /-- A plus sign stands in front. -/
  plus : Bool := false
  /-- A blank stands where the sign would be. -/
  blank : Bool := false
  /-- The base is shown, and a point that nothing follows. -/
  full : Bool := false
  /-- Zeros fill the width. -/
  zeros : Bool := false
  width : Nat := 0
  precision : Option Nat := none
  deriving DecidableEq, Repr

/-- What a number is written as. -/
inductive Conversion where
  | decimal
  | octal
  | hex (upper : Bool)
  /-- The decimal text, of which the precision is the most that is taken. -/
  | text
  | character
  | scientific (upper : Bool)
  | fixed
  | general (upper : Bool)
  deriving DecidableEq, Repr

/-- The conversion that a letter stands for. -/
def Conversion.ofChar? (c : Char) : Option Conversion :=
  match c with
  | 'd' | 'i' | 'u' => some decimal
  | 'o' => some octal
  | 'x' => some (hex false)
  | 'X' => some (hex true)
  | 's' | 'r' | 'a' => some text
  | 'c' => some character
  | 'e' => some (scientific false)
  | 'E' => some (scientific true)
  | 'f' | 'F' => some fixed
  | 'g' => some (general false)
  | 'G' => some (general true)
  | _ => none

namespace Directive

/-- What stands for the sign of a number that is not negative. -/
def sign (d : Directive) : List Char :=
  if d.plus then ['+'] else if d.blank then [' '] else []

/-- Fills the width: in front of everything, or with zeros before the digits,
or behind. -/
def layOut (d : Directive) (sign digits : List Char) : List Char :=
  let room := d.width - (sign.length + digits.length)
  if d.left then sign ++ digits ++ List.replicate room ' '
  else if d.zeros then sign ++ List.replicate room '0' ++ digits
  else List.replicate room ' ' ++ sign ++ digits

/-- Lays out a text, which has no sign and is not filled with zeros. -/
def layOutText (d : Directive) (text : List Char) : List Char :=
  { d with zeros := false }.layOut [] text

/-- The letters in capitals if these are asked for. -/
def capitals (upper : Bool) (s : List Char) : List Char :=
  if upper then s.map Char.toUpper else s

/-- The most digits that there is room for. -/
def digitLimit : Nat := 2147483644

/-- Writes the number in a base, whose mark is shown in the full form. -/
def writeBased (d : Directive) (base : Nat) (mark : List Char) (n : Nat) :
    Except TemplateProblem (List Char) :=
  let least := d.precision.getD 1
  if digitLimit < least then .error .precisionTooLarge
  else .ok (d.layOut (d.sign ++ if d.full then mark else []) (Figures.based base least n))

/-- The precision where none is given. -/
def usualPrecision : Nat := 6

/-- Writes the number with decimals, by one of the forms. -/
def writeForm (d : Directive) (form : Bool → Nat → Nat → List Char) (upper : Bool) (n : Nat) :
    List Char :=
  d.layOut d.sign (capitals upper (form d.full (d.precision.getD usualPrecision) n))

/-- The number as the directive and the conversion have it. -/
def write (d : Directive) (n : Nat) : Conversion → Except TemplateProblem (List Char)
  | .decimal => d.writeBased 10 [] n
  | .octal => d.writeBased 8 ['0', 'o'] n
  | .hex upper => (d.writeBased 16 ['0', 'x'] n).map (capitals upper)
  | .text =>
    let digits := Figures.based 10 1 n
    .ok (d.layOutText (digits.take (d.precision.getD digits.length)))
  | .character =>
    if n < 0x110000 then .ok (d.layOutText [Char.ofNat n]) else .error .noCharacter
  | .scientific upper => .ok (d.writeForm Figures.scientific upper n)
  | .fixed => .ok (d.writeForm Figures.fixed false n)
  | .general upper => .ok (d.writeForm Figures.general upper n)

/-! ### Reading -/

/-- Reads the flags, in any order and number. -/
def readFlags (d : Directive) : List Char → Directive × List Char
  | '-' :: s => readFlags { d with left := true } s
  | '+' :: s => readFlags { d with plus := true } s
  | ' ' :: s => readFlags { d with blank := true } s
  | '#' :: s => readFlags { d with full := true } s
  | '0' :: s => readFlags { d with zeros := true } s
  | s => (d, s)

/-- The largest width. -/
def widthLimit : Nat := 9223372036854775807

/-- The largest precision. -/
def precisionLimit : Nat := 2147483647

/-- Reads a size of at most `limit`; none counts as zero. -/
def readSize (limit : Nat) (tooBig : TemplateProblem) (s : List Char) :
    Except TemplateProblem (Nat × List Char) :=
  let n := Nat.ofDigitChars 10 (s.takeWhile Char.isDigit) 0
  if limit < n then .error tooBig else .ok (n, s.dropWhile Char.isDigit)

/-- Takes the number for a star, if it is still there and not too large. -/
def takeSize (limit : Nat) (holder : String) : Option Nat → Except TemplateProblem Nat
  | none => .error .placesLeft
  | some n => if limit < n then .error (.numberTooLarge holder) else .ok n

/-- Reads the width; the result is what is left of the number and the rest. -/
def readWidth (d : Directive) (number : Option Nat) :
    List Char → Except TemplateProblem (Directive × Option Nat × List Char)
  | '*' :: s => do
    let width ← takeSize widthLimit "ssize_t" number
    return ({ d with width }, none, s)
  | s => do
    let (width, rest) ← readSize widthLimit .widthTooBig s
    return ({ d with width }, number, rest)

/-- Reads the precision, if there is a point. -/
def readPrecision (d : Directive) (number : Option Nat) :
    List Char → Except TemplateProblem (Directive × Option Nat × List Char)
  | '.' :: '*' :: s => do
    let p ← takeSize precisionLimit "int" number
    return ({ d with precision := some p }, none, s)
  | '.' :: s => do
    let (p, rest) ← readSize precisionLimit .precisionTooBig s
    return ({ d with precision := some p }, number, rest)
  | s => return (d, number, s)

/-- The text after a letter that says how long a number may be. -/
def skipLength : List Char → List Char
  | 'h' :: s | 'l' :: s | 'L' :: s => s
  | s => s

/-- Reads a directive up to its last letter. -/
def read (number : Option Nat) (s : List Char) :
    Except TemplateProblem (Directive × Option Nat × List Char) :=
  if s.head? = some '(' then .error .named
  else do
    let (d, s) := readFlags {} s
    let (d, number, s) ← readWidth d number s
    let (d, number, s) ← readPrecision d number s
    return (d, number, skipLength s)

theorem readFlags_length (d : Directive) (s : List Char) :
    (readFlags d s).2.length ≤ s.length := by
  fun_induction readFlags d s <;> simp only [List.length_cons] <;> omega

theorem readSize_length {limit : Nat} {p : TemplateProblem} {s rest : List Char} {n : Nat}
    (h : readSize limit p s = .ok (n, rest)) : rest.length ≤ s.length := by
  simp only [readSize] at h
  split at h
  · cases h
  · cases h
    exact (List.dropWhile_sublist _).length_le

theorem readWidth_length {d e : Directive} {number left : Option Nat} {s rest : List Char}
    (h : readWidth d number s = .ok (e, left, rest)) : rest.length ≤ s.length := by
  unfold readWidth at h
  split at h
  · cases hw : takeSize widthLimit "ssize_t" number <;> rw [hw] at h <;> cases h
    simp
  · cases hr : readSize widthLimit .widthTooBig s <;> rw [hr] at h <;> cases h
    exact readSize_length hr

theorem readPrecision_length {d e : Directive} {number left : Option Nat} {s rest : List Char}
    (h : readPrecision d number s = .ok (e, left, rest)) : rest.length ≤ s.length := by
  unfold readPrecision at h
  split at h
  · cases hp : takeSize precisionLimit "int" number <;> rw [hp] at h <;> cases h
    simp only [List.length_cons]
    omega
  · next s _ =>
    cases hr : readSize precisionLimit .precisionTooBig s <;> rw [hr] at h <;> cases h
    have := readSize_length hr
    simp only [List.length_cons]
    omega
  · cases h
    exact Nat.le_refl _

theorem skipLength_length (s : List Char) : (skipLength s).length ≤ s.length := by
  unfold skipLength
  split <;> simp

/-- Reading goes forward. -/
theorem read_length {d : Directive} {number left : Option Nat} {s rest : List Char}
    (h : read number s = .ok (d, left, rest)) : rest.length ≤ s.length := by
  unfold read at h
  split at h
  · cases h
  cases hw : readWidth (readFlags {} s).1 number (readFlags {} s).2 with
  | error p => simp [hw, bind, Except.bind] at h
  | ok w =>
    obtain ⟨e, number', s'⟩ := w
    cases hp : readPrecision e number' s' with
    | error p => simp [hw, hp, bind, Except.bind] at h
    | ok p =>
      obtain ⟨e', number'', s''⟩ := p
      simp only [hw, hp, bind, Except.bind] at h
      cases h
      have h1 := readFlags_length {} s
      have h2 := readWidth_length hw
      have h3 := readPrecision_length hp
      have h4 := skipLength_length s''
      omega

end Directive

/-! ### Filling -/

/-- The problem of a directive that ends with the character. -/
def unknown (c : Char) (place : Nat) : TemplateProblem :=
  let display := if 31 ≤ c.toNat ∧ c.toNat ≤ 126 then c else '?'
  .badConversion display.toString (String.ofList (Nat.toDigits 16 c.toNat)) place

/-- The text of the conversion that a character stands for, at a place of the
template. -/
def convert (d : Directive) (n : Nat) (c : Char) (place : Nat) :
    Except TemplateProblem (List Char) :=
  match Conversion.ofChar? c with
  | some conversion => d.write n conversion
  | none => .error (unknown c place)

/-- Replaces the directives in the rest of a template of the given size. The
number is there until it is taken. -/
def fillRest (size : Nat) : Option Nat → List Char → Except TemplateProblem (List Char)
  | none, [] => .ok []
  | some _, [] => .error .numberLeft
  | number, '%' :: '%' :: s => do return '%' :: (← fillRest size number s)
  | number, '%' :: s =>
    match _ : Directive.read number s with
    | .error p => .error p
    | .ok (_, _, []) => .error .incomplete
    | .ok (_, none, _ :: _) => .error .placesLeft
    | .ok (d, some n, c :: rest) => do
      let text ← convert d n c (size - rest.length - 1)
      return text ++ (← fillRest size none rest)
  | number, c :: s => do return c :: (← fillRest size number s)
  termination_by _ s => s.length
  decreasing_by
    · simp only [List.length_cons]
      omega
    · have := Directive.read_length ‹Directive.read _ _ = _›
      simp only [List.length_cons] at this ⊢
      omega
    · simp only [List.length_cons]
      omega

/-- The template with the number in its place. -/
def fill (template : List Char) (n : Nat) : Except Fault (List Char) :=
  match fillRest template.length (some n) template with
  | .ok s => .ok s
  | .error p => .error (.badTemplate p)

end Template
end DiceRoller
