/-
# Play: rolling dice for a hand

Modifiers work at a table that holds the term, the hand rolled for it and the
source. A step of play may fail; the table then keeps what was changed before:
values drawn stay drawn, and counts that grew stay grown.

The term may be a draft of any unit, but only dice can be rolled.

Key definitions: `Table`, `Play`, `Play.number`, `Play.sides`, `Play.die`,
`Play.dice`, `Play.rerollEach`, `Play.chain`, `Play.explodeEach`.
-/
import DiceRoller.Hand
import DiceRoller.Options
import DiceRoller.Source

namespace DiceRoller

/-- What modifiers work on. -/
structure Table where
  term : Draft
  hand : Hand
  source : Source

/-- A step of play, which may fail and leaves the table as it is then. -/
abbrev Play (α : Type) := EStateM Fault Table α

namespace Play

/-- Changes the hand. -/
def update (f : Hand → Hand) : Play Unit := fun t => .ok () { t with hand := f t.hand }

/-- The hand as it is now. -/
def hand : Play Hand := fun t => .ok t.hand t

/-- How many draws are surely enough, see `Source.horizon`. -/
def horizon : Play Nat := fun t => .ok t.source.horizon t

/-- Fails with the fault of a text that may not be written, or gives the text. -/
def ofExcept {α : Type} : Except Fault α → Play α
  | .ok a => pure a
  | .error f => throw f

/-- The fault of a term that is no dice, which has no part of the name. -/
def noPart {α : Type} (name : String) : Play α := fun t =>
  .error (.misuse (.noPart t.term.kindName name)) t

/-- How often something is done, which must be a whole number; below zero it is
not done at all. -/
def timesOf : Datum → Except Fault Nat
  | .number n => .ok n.toNat
  | .truth b => .ok (if b then 1 else 0)
  | d => .error (.misuse (.notWhole d.kindName))

/-- How many dice are rolled for the term. -/
def number : Play Nat := fun t =>
  match t.term with
  | .dice _ number _ _ => ofExcept (timesOf number) t
  | _ => noPart "number" t

/-- How many sides the dice of the term have. -/
def sides : Play Datum := fun t =>
  match t.term with
  | .dice _ _ sides _ => .ok sides t
  | _ => noPart "sides" t

/-- Rolls one die. -/
def die (sides : Datum) : Play Int := fun t =>
  match Source.roll sides t.source with
  | .ok v s => .ok v { t with source := s }
  | .error f s => .error f { t with source := s }

/-- Rolls a die of the term. -/
def ownDie : Play Int := do
  let m ← sides
  die m

/-- Rolls so many dice of the term, one after the other. -/
def dice : Nat → Play (List Int)
  | 0 => pure []
  | n + 1 => do
    let v ← ownDie
    let vs ← dice n
    return v :: vs

/-- Rolls a die of the term once more, and counts it. -/
def again : Play Int := do
  let v ← ownDie
  update fun h => { h with rerolled := h.rerolled + 1 }
  return v

/-- The rolls with every one of at most `lte` replaced by a new one, which is
not looked at again. -/
def rerollEach (lte : Datum) : List Int → Play (List Int)
  | [] => pure []
  | r :: rs => do
    let low ← ofExcept (Datum.atMost (.number r) lte)
    let v ← if low then again else pure r
    let vs ← rerollEach lte rs
    return v :: vs

/-- The dice that a die adds, each as long as the one before it triggers, at
most `room`. Running out of room ends the chain if there is a cap; without a
cap the room is more than the source has values. -/
def chain (e : Explode) (sides : Datum) : Nat → Int → Play (List Int)
  | 0, v => do
    if e.cap != 0 then return []
    if ← ofExcept (e.triggersFor sides (.number v)) then throw .endless
    return []
  | room + 1, v => do
    if !(← ofExcept (e.triggersFor sides (.number v))) then return []
    let w ← die sides
    let ws ← chain e sides room w
    return w :: ws

/-- The dice that a die adds, within the cap. -/
def extras (e : Explode) (sides : Datum) (v : Int) : Play (List Int) := do
  let enough ← horizon
  chain e sides (if e.cap = 0 then enough else e.cap) v

/-- The rolls, each followed by the dice it adds. A chain is counted when it
is complete. -/
def explodeEach (e : Explode) (sides : Datum) : List Int → Play (List Int)
  | [] => pure []
  | v :: vs => do
    let added ← extras e sides v
    update fun h => { h with exploded := h.exploded + added.length }
    let rest ← explodeEach e sides vs
    return v :: (added ++ rest)

end Play
end DiceRoller
