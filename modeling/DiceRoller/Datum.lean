/-
# Data of any kind

A value that comes from outside, as an argument of an option or a key of the
settings, may be of any kind: nothing, a truth value, a whole number, a real
number (kept as its text), a text, a list, or a map from texts.

A datum has two texts. In a list or a map, and in messages, it is shown
(`shown`): texts stand in quotes. By itself it is written plainly (`plain`): a
text stands for itself.

Data have a truth value each: what is nothing, zero or empty is false. Those
that are numbers are ordered; whoever compares others is told their kinds.

Key definitions: `Datum`, `Datum.shown`, `Datum.plain`, `Datum.numbers`,
`Datum.holds`, `Datum.lessThan`, `Datum.atMost`, `Datum.atLeast`,
`Datum.same`.
Key theorems: `Datum.lessThan_number`, `Datum.atMost_number`,
`Datum.atLeast_number`, `Datum.same_number`.
-/
import DiceRoller.Binary
import DiceRoller.Text.Decimal
import DiceRoller.Text.Numeral
import DiceRoller.Text.Quoted

namespace DiceRoller

/-- A value of any kind. -/
inductive Datum where
  | nothing
  | truth (b : Bool)
  | number (n : Int)
  /-- A real number, by its text. -/
  | real (text : String)
  | text (s : String)
  | list (items : List Datum)
  /-- A map in the order in which its entries were given. -/
  | map (entries : List (String × Datum))
  deriving Inhabited, Repr

namespace Datum

/-- The texts one after the other, with a comma and a space between two. -/
def commaJoin (texts : List String) : String := ", ".intercalate texts

mutual

/-- The datum as it stands in messages. -/
def shown : Datum → String
  | nothing => "None"
  | truth b => if b then "True" else "False"
  | number n => toString n
  | real t => t
  | text s => Quoted.text s
  | list items => "[" ++ commaJoin (shownItems items) ++ "]"
  | map entries => "\x7b" ++ commaJoin (shownEntries entries) ++ "\x7d"

/-- The items of a list as they stand in messages. -/
def shownItems : List Datum → List String
  | [] => []
  | d :: ds => shown d :: shownItems ds

/-- The entries of a map as they stand in messages. -/
def shownEntries : List (String × Datum) → List String
  | [] => []
  | (key, d) :: es => (Quoted.text key ++ ": " ++ shown d) :: shownEntries es

end

mutual

/-- The numbers that the texts of a datum write. -/
def numbers : Datum → List Int
  | number n => [n]
  | list items => itemNumbers items
  | map entries => entryNumbers entries
  | _ => []

/-- The numbers in the items of a list. -/
def itemNumbers : List Datum → List Int
  | [] => []
  | d :: ds => numbers d ++ itemNumbers ds

/-- The numbers in the entries of a map. -/
def entryNumbers : List (String × Datum) → List Int
  | [] => []
  | (_, d) :: es => numbers d ++ entryNumbers es

end

/-- The datum written by itself. -/
def plain : Datum → String
  | text s => s
  | d => d.shown

/-- The name of the kind of a datum, as messages give it. -/
def kindName : Datum → String
  | nothing => "NoneType"
  | truth _ => "bool"
  | number _ => "int"
  | real _ => "float"
  | text _ => "str"
  | list _ => "list"
  | map _ => "dict"

/-- Whether the datum counts as true. -/
def holds : Datum → Bool
  | nothing => false
  | truth b => b
  | number n => n != 0
  | real t => !(Decimal.ofText t).isZero
  | text s => s != ""
  | list items => !items.isEmpty
  | map entries => !entries.isEmpty

/-- The number that a datum is; a truth value counts as one, and a real number
is as near to its text as a binary one can be. -/
def decimal? : Datum → Option Decimal
  | number n => some (.finite n 0)
  | truth b => some (.finite (if b then 1 else 0) 0)
  | real t => some (Decimal.ofText t).kept
  | _ => none

/-- The order of two data, if they are both numbers and have one. -/
def order? (a b : Datum) : Option (Option Ordering) := do
  let x ← a.decimal?
  let y ← b.decimal?
  return x.order? y

/-- Whether two data are in a relation, which messages name. Of data that have
no order only numbers may be asked. -/
def related (relation : String) (holds : Ordering → Bool) (a b : Datum) : Except Fault Bool :=
  match order? a b with
  | some (some o) => .ok (holds o)
  | some none => .ok false
  | none => .error (.misuse (.unordered relation a.kindName b.kindName))

/-- Whether the first datum is less than the second. -/
def lessThan (a b : Datum) : Except Fault Bool := related "<" (· == .lt) a b

/-- Whether the first datum is at most the second. -/
def atMost (a b : Datum) : Except Fault Bool := related "<=" (· != .gt) a b

/-- Whether the first datum is at least the second. -/
def atLeast (a b : Datum) : Except Fault Bool := related ">=" (· != .lt) a b

mutual

/-- Whether two data are equal: numbers by what they denote, lists item by
item, maps in any order. -/
def same : Datum → Datum → Bool
  | nothing, nothing => true
  | text s, text t => s == t
  | list items, list others => sameItems items others
  | map entries, map others => entries.length == others.length && sameEntries entries others
  | a, b => order? a b == some (some .eq)

/-- Whether two lists of data are equal item by item. -/
def sameItems : List Datum → List Datum → Bool
  | [], [] => true
  | a :: as, b :: bs => same a b && sameItems as bs
  | _, _ => false

/-- Whether the entries are all among the others. -/
def sameEntries : List (String × Datum) → List (String × Datum) → Bool
  | [], _ => true
  | (key, a) :: es, others => ((others.lookup key).any fun b => same a b) && sameEntries es others

end

/-- Whether a datum is equal to itself: only what is no number at all is not.
The items of a list or a map are not compared with themselves. -/
def sameAsItself : Datum → Bool
  | real t => Decimal.ofText t != .undefined
  | _ => true

/-- Whole numbers are ordered as such. -/
@[simp] theorem order?_number (m n : Int) :
    order? (number m) (number n) = some (some (Decimal.orderInt m n)) := by
  simp [order?, decimal?]

@[simp] theorem lessThan_number (m n : Int) :
    lessThan (number m) (number n) = .ok (decide (m < n)) := by
  simp only [lessThan, related, order?_number, Decimal.orderInt]
  split
  · simp_all
  · split <;> simp_all

@[simp] theorem atMost_number (m n : Int) :
    atMost (number m) (number n) = .ok (decide (m ≤ n)) := by
  simp only [atMost, related, order?_number, Decimal.orderInt]
  split
  · next h => simp [Int.le_of_lt h]
  · split
    · next h => simp [h]
    · next h e => simp; omega

@[simp] theorem atLeast_number (m n : Int) :
    atLeast (number m) (number n) = .ok (decide (n ≤ m)) := by
  simp only [atLeast, related, order?_number, Decimal.orderInt]
  split
  · next h => simp [Int.not_le.2 h]
  · next h =>
    have hle : n ≤ m := Int.not_lt.1 h
    split <;> simp [hle]

@[simp] theorem same_number (m n : Int) : same (number m) (number n) = decide (m = n) := by
  simp only [same, order?_number, Decimal.orderInt]
  split
  · next h => simp; omega
  · split
    · next h => simp [h]
    · next h => simp [h]

/-- The datum as it stands in messages, if its numbers may be written. -/
def quote (d : Datum) : Except Fault String := Numeral.publish d.numbers d.shown

/-- The datum written by itself, if its numbers may be written. -/
def write (d : Datum) : Except Fault String := Numeral.publish d.numbers d.plain

end Datum
end DiceRoller
