/-
# Hands: the dice rolled for a term and what was done to them

A hand holds the rolls for a term in the order in which they were rolled,
the samples of a pick, the values dropped, and how many dice were rerolled and
added. Drops never move or remove a roll: the values dropped are listed apart,
and each takes the leftmost roll of its value that is not taken yet. This is
said by `Hand.mark`, and computed with the counts of the dropped values
(`Hand.markBy`).

The term itself is not part of the hand; texts of a hand are given its text.

Tags say in the text of the hand which modifiers applied; they are kept in the
order of their numbers.

Key definitions: `Hand`, `Hand.mark`, `Hand.kept`, `Hand.drop`, `Hand.text`,
`Tags.set`, `tally`.
Key theorems: `Hand.mark_fst`, `Hand.marked_eq`, `Hand.kept_eq`.
-/
import DiceRoller.Counts

namespace DiceRoller

/-! ### Tags -/

/-- Texts by number, ascending. -/
abbrev Tags := List (Int × String)

/-- The tags with the one of the given number replaced or added. -/
def Tags.set : Tags → Int → String → Tags
  | [], key, text => [(key, text)]
  | (k, t) :: rest, key, text =>
    if key < k then (key, text) :: (k, t) :: rest
    else if key = k then (key, text) :: rest
    else (k, t) :: Tags.set rest key text

/-! ### Lists of values and how often each occurs -/

/-- The values of a list that have counts, each at its first occurrence and
with its count. -/
def tallyBy (c : Counts) : List Int → List (Int × Nat)
  | [] => []
  | v :: vs => if c.count v = 0 then tallyBy c vs else (v, c.count v) :: tallyBy (c.takeAll v) vs

/-- The different values of a list in the order of their first occurrence,
each with the number of its occurrences. -/
def tally (values : List Int) : List (Int × Nat) := tallyBy (Counts.ofList values) values

/-- The tally as a map, in its own order. -/
def tallyText (counts : List (Int × Nat)) : String :=
  "\x7b" ++ ", ".intercalate (counts.map fun p => toString p.1 ++ ": " ++ toString p.2) ++ "\x7d"

/-- The tally as a counter: the values that occur most often come first. -/
def counterRecord (counts : List (Int × Nat)) : String :=
  if counts = [] then "Counter()"
  else "Counter(" ++ tallyText (counts.mergeSort fun p q => q.2 ≤ p.2) ++ ")"

/-- The values as a list in brackets. -/
def valuesText (values : List Int) : String :=
  "[" ++ ", ".intercalate (values.map toString) ++ "]"

/-! ### Hands -/

/-- The rolls for a term and everything done to them. -/
structure Hand where
  /-- Every roll, in the order of rolling; explosions stand after their die. -/
  rolls : List Int := []
  /-- The rolls made for a pick. -/
  samples : List Int := []
  /-- The values dropped, in the order of dropping. -/
  dropped : List Int := []
  /-- How many dice were rerolled. -/
  rerolled : Nat := 0
  /-- How many dice explosions added. -/
  exploded : Nat := 0
  tags : Tags := []
  deriving DecidableEq, Repr

namespace Hand

/-- The rolls, each with whether it is dropped: a value yet to be dropped
takes the next roll of that value. -/
def mark : List Int → List Int → List (Int × Bool)
  | [], _ => []
  | r :: rs, left =>
    if left.contains r then (r, true) :: mark rs (left.erase r) else (r, false) :: mark rs left

/-- The rolls marked by the counts of the values yet to be dropped. -/
def markBy (c : Counts) : List Int → List (Int × Bool)
  | [] => []
  | r :: rs =>
    if c.count r = 0 then (r, false) :: markBy c rs else (r, true) :: markBy (c.take r) rs

/-- The rolls that are not dropped. -/
def keep : List Int → List Int → List Int
  | [], _ => []
  | r :: rs, left =>
    if left.contains r then keep rs (left.erase r) else r :: keep rs left

/-- The rolls of the hand, each with whether it is dropped. -/
def marked (h : Hand) : List (Int × Bool) := markBy (Counts.ofList h.dropped) h.rolls

/-- The rolls that survived every drop. -/
def kept (h : Hand) : List Int := (h.marked.filter (!·.2)).map Prod.fst

/-- What the hand is worth, regardless of its sign. -/
def value (h : Hand) : Int := h.kept.foldr (· + ·) 0

/-- The values from the lowest to the highest, or the other way round. -/
def sorted (highestFirst : Bool) (values : List Int) : List Int :=
  if highestFirst then values.mergeSort fun a b => b ≤ a else values.mergeSort fun a b => a ≤ b

/-- The values that a drop of `num` takes: the lowest or the highest ones kept,
all of them if there are not enough, none if `num` is not positive. -/
def selected (h : Hand) (num : Int) (highest : Bool) : List Int :=
  (sorted highest h.kept).take num.toNat

/-- Drops `num` of the lowest or highest values kept. -/
def drop (h : Hand) (num : Int) (highest : Bool) : Hand :=
  { h with dropped := h.dropped ++ h.selected num highest }

/-- The hand with the tag. -/
def tag (h : Hand) (key : Int) (text : String) : Hand := { h with tags := h.tags.set key text }

/-! ### Texts -/

/-- A roll as it is displayed: in parentheses if it is dropped. -/
def entry (p : Int × Bool) : String :=
  if p.2 then "(" ++ toString p.1 ++ ")" else toString p.1

/-- The rolls as they are displayed. -/
def annotated (h : Hand) : String := ",".intercalate (h.marked.map entry)

/-- The numbers in the display of the rolls. -/
def annotatedNumbers (h : Hand) : List Int := h.rolls

/-- The term with the tags. -/
def heading (h : Hand) (term : String) : String :=
  term ++ String.join (h.tags.map fun t => " " ++ t.2)

/-- The hand as one part of the result: the term, the tags, the rolls and the
value. -/
def text (h : Hand) (term : String) : String :=
  h.heading term ++ " [" ++ h.annotated ++ "]=" ++ toString h.value

/-- The numbers in the text, apart from those in the term and in tags. -/
def textNumbers (h : Hand) : List Int := h.rolls ++ [h.value]

/-- The main fields of the hand, with the record of the term. -/
def record (h : Hand) (term : String) : String :=
  "TermResult(term=" ++ term ++ ", rolls=" ++ valuesText h.rolls ++ ", dropped="
    ++ counterRecord (tally h.dropped) ++ ")"

/-- The numbers in the record, apart from those in the term. -/
def recordNumbers (h : Hand) : List Int := h.rolls ++ h.dropped

/-- What the log says of a hand that has been rolled for the term. -/
def logText (h : Hand) (term : String) : String :=
  "Rolled " ++ term ++ ": rolls " ++ valuesText h.rolls ++ ", dropped "
    ++ tallyText (tally h.dropped)

/-! ### Marking keeps every roll in its place -/

theorem mark_fst (rolls left : List Int) : (mark rolls left).map Prod.fst = rolls := by
  induction rolls generalizing left with
  | nil => rfl
  | cons r rs ih => unfold mark; split <;> simp [ih]

theorem keep_eq_mark (rolls left : List Int) :
    keep rolls left = ((mark rolls left).filter (!·.2)).map Prod.fst := by
  induction rolls generalizing left with
  | nil => rfl
  | cons r rs ih => unfold keep mark; split <;> simp [ih]

theorem markBy_eq_mark {c : Counts} {left : List Int} (h : ∀ v, c.count v = left.count v)
    (rolls : List Int) : markBy c rolls = mark rolls left := by
  induction rolls generalizing c left with
  | nil => rfl
  | cons r rs ih =>
    rw [markBy, mark, h r]
    by_cases hr : r ∈ left
    · have taken : ∀ v, (c.take r).count v = (left.erase r).count v := by
        intro v
        rw [Counts.count_take, h v, List.count_erase]
        by_cases e : r = v <;> simp [e]
      simp [hr, List.count_eq_zero, ih taken]
    · simp [hr, List.count_eq_zero, ih h]

/-- The rolls of a hand are marked by the values dropped. -/
theorem marked_eq (h : Hand) : h.marked = mark h.rolls h.dropped :=
  markBy_eq_mark (Counts.count_ofList h.dropped) h.rolls

/-- What is kept of a hand is what the values dropped leave. -/
theorem kept_eq (h : Hand) : h.kept = keep h.rolls h.dropped := by
  rw [kept, marked_eq, keep_eq_mark]

end Hand
end DiceRoller
