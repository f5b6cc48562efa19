/-
# The engine of words

The engine steps a state of 128 bits by a linear congruence and hands out 64
bits of it: the two halves joined by exclusive or, rotated by the topmost six
bits. A draw of 32 bits takes the lower half of a word and keeps the upper half
for the next such draw.

A number below `n` is drawn by multiplying a word with `n` and taking what
overflows the word. So that all numbers are equally likely, a word is thrown
away when the part that does not overflow is below a threshold less than `n`.

With its state and the half that it keeps as one word an engine is a generator,
and it is the one that seeds make (`Generator.ofSeed`).

Key definitions: `Engine`, `Engine.ofSeed`, `Engine.long`, `Engine.short`,
`Engine.below`, `Engine.draw`, `Engine.generator`, `Generator.ofSeed`.
Key theorems: `Engine.draw_mem_range`, `Engine.increment_of_draw`,
`Engine.ofCode_code`, `Engine.draw_generator`.
-/
import DiceRoller.Source.Generator
import DiceRoller.Source.Seeding

namespace DiceRoller

/-- An engine of words. -/
structure Engine where
  state : BitVec 128
  increment : BitVec 128
  /-- The half of a word that the next short draw hands out. -/
  spare : Option (BitVec 32)
  deriving DecidableEq, Repr

namespace Engine

/-- The factor of the congruence. -/
def factor : BitVec 128 := 0x2360ed051fc65da44385df649fccf645

/-- One step of the congruence. -/
def step (e : Engine) : Engine := { e with state := e.state * factor + e.increment }

/-- The engine of a seed. -/
def ofSeed (seed : Nat) : Engine :=
  let w := Seeding.longWords seed
  let increment : BitVec 128 := ((w.getD 2 0) ++ (w.getD 3 0)) <<< 1 ||| 1
  let e : Engine := ⟨0, increment, none⟩
  let e := e.step
  let e := { e with state := e.state + ((w.getD 0 0) ++ (w.getD 1 0)) }
  e.step

/-- Draws a word of 64 bits. -/
def long (e : Engine) : BitVec 64 × Engine :=
  let e := e.step
  let x := e.state.extractLsb' 64 64 ^^^ e.state.extractLsb' 0 64
  (x.rotateRight (e.state >>> 122).toNat, e)

/-- Draws a word of 32 bits. -/
def short (e : Engine) : BitVec 32 × Engine :=
  match e.spare with
  | some w => (w, { e with spare := none })
  | none =>
    let (w, e) := e.long
    (w.extractLsb' 0 32, { e with spare := some (w.extractLsb' 32 32) })

/-- The sizes of words that draws are made of. -/
inductive Size where
  | short
  | long
  deriving DecidableEq, Repr

/-- How many words there are of the size. -/
def Size.count : Size → Nat
  | short => Nat.pow 2 32
  | long => Nat.pow 2 64

/-- Draws a word of the size, as a number. -/
def word (size : Size) (e : Engine) : Nat × Engine :=
  match size with
  | .short => let (w, e) := e.short; (w.toNat, e)
  | .long => let (w, e) := e.long; (w.toNat, e)

/-- The number of states of an engine, the spare half included.
After as many draws it has begun to repeat itself. -/
def stateCount : Nat := Nat.pow 2 161

/-- Draws words until one, multiplied by `n`, leaves at least `threshold`
below the size of a word; then the rest of the product is the result. The
first argument bounds the draws. -/
def retry (size : Size) (n threshold : Nat) :
    Nat → Engine → EStateM.Result Fault Engine Nat
  | 0, e => .error .endless e
  | tries + 1, e =>
    let (w, e) := e.word size
    if w * n % size.count < threshold then retry size n threshold tries e
    else .ok (w * n / size.count) e

/-- Draws a number below `n`, which is positive and at most the number of
words of the size. The threshold leaves a multiple of `n` words. -/
def below (size : Size) (n : Nat) (e : Engine) : EStateM.Result Fault Engine Nat :=
  retry size n ((size.count - n) % n) stateCount e

/-- The smallest number of 64 bits with a sign. -/
def lowest : Int := -9223372036854775808

/-- The largest number of 64 bits with a sign. -/
def highest : Int := 9223372036854775807

/-- What is wrong with a range. -/
def rangeProblem? (low high : Int) : Option RangeProblem :=
  if low < lowest then some .lowTooSmall
  else if highest < high then some .highTooLarge
  else if low ≤ high then none
  else if low = 0 then some .negativeHigh
  else some .reversed

/-- Draws a number of a range that is `span` wide: none is drawn for a single
number, and a whole word for a range as wide as one. -/
def offset (span : Nat) (e : Engine) : EStateM.Result Fault Engine Nat :=
  if span = 0 then .ok 0 e
  else if span + 1 < Size.short.count then below .short (span + 1) e
  else if span + 1 = Size.short.count then let (w, e) := e.word .short; .ok w e
  else if span + 1 < Size.long.count then below .long (span + 1) e
  else let (w, e) := e.word .long; .ok w e

/-- Draws a number between `low` and `high`. -/
def draw (low high : Int) (e : Engine) : EStateM.Result Fault Engine Int :=
  match rangeProblem? low high with
  | some p => .error (.badRange p) e
  | none =>
    match offset (high - low).toNat e with
    | .ok n e => .ok (low + n) e
    | .error f e => .error f e

/-! ### What is drawn -/

variable {low high v : Int} {e e' : Engine}

/-- The part of a product that overflows a word is below the factor. -/
theorem mul_div_lt {w n size : Nat} (hw : w < size) (hn : 0 < n) : w * n / size < n :=
  Nat.div_lt_of_lt_mul (Nat.mul_lt_mul_of_pos_right hw hn)

theorem word_lt (size : Size) (e : Engine) : (e.word size).1 < size.count := by
  cases size with
  | short => exact e.short.1.isLt
  | long => exact e.long.1.isLt

/-- However many words are thrown away, what is kept of the last one is below
the number of results. -/
theorem retry_lt {size : Size} {n threshold k : Nat} (hn : 0 < n) :
    ∀ {tries : Nat} {e e' : Engine}, retry size n threshold tries e = .ok k e' → k < n
  | 0, e, e', h => by cases h
  | tries + 1, e, e', h => by
    unfold retry at h
    simp only at h
    split at h
    · exact retry_lt hn h
    · cases h
      exact mul_div_lt (word_lt size e) hn

theorem offset_le {span k : Nat} (h : offset span e = .ok k e') : k ≤ span := by
  unfold offset at h
  split at h
  · cases h
    exact Nat.zero_le _
  split at h
  · exact Nat.le_of_lt_succ (retry_lt (Nat.succ_pos _) h)
  split at h
  · next hs =>
    cases h
    exact Nat.le_of_lt_succ (Nat.lt_of_lt_of_eq (word_lt .short e) hs.symm)
  split at h
  · exact Nat.le_of_lt_succ (retry_lt (Nat.succ_pos _) h)
  · next hl =>
    cases h
    exact Nat.le_of_lt_succ (Nat.lt_of_lt_of_le (word_lt .long e) (Nat.le_of_not_lt hl))

theorem draw_mem_range (h : e.draw low high = .ok v e') : low ≤ v ∧ v ≤ high := by
  unfold draw at h
  split at h
  · cases h
  · next hp =>
    have hle : low ≤ high := by
      unfold rangeProblem? at hp
      grind
    split at h
    · next n e₁ ho =>
      cases h
      have := offset_le ho
      omega
    · cases h

/-! ### The engine as a generator -/

/-- The engine that a result leaves. -/
def left {α : Type} : EStateM.Result Fault Engine α → Engine
  | .ok _ e => e
  | .error _ e => e

theorem increment_long (e : Engine) : e.long.2.increment = e.increment := by
  have hstep : e.long.2 = e.step := by rw [long]
  rw [hstep, step]

theorem increment_word (size : Size) (e : Engine) : (e.word size).2.increment = e.increment := by
  cases size with
  | long => rw [word, increment_long]
  | short =>
    cases hs : e.spare with
    | none =>
      have hshort : e.short.2 =
          { e.long.2 with spare := some (e.long.1.extractLsb' 32 32) } := by rw [short, hs]
      rw [word, hshort, increment_long]
    | some w => rw [word, short, hs]

theorem increment_of_retry {size : Size} {n threshold : Nat} (tries : Nat) (e : Engine) :
    (left (retry size n threshold tries e)).increment = e.increment := by
  induction tries generalizing e with
  | zero => rfl
  | succ tries ih =>
    unfold retry
    simp only
    split
    · rw [ih, increment_word]
    · exact increment_word size e

theorem increment_of_offset (span : Nat) (e : Engine) :
    (left (offset span e)).increment = e.increment := by
  have hbelow : ∀ size n, (left (below size n e)).increment = e.increment := fun _ _ =>
    increment_of_retry stateCount e
  unfold offset
  split
  · rfl
  split
  · exact hbelow _ _
  split
  · exact increment_word .short e
  split
  · exact hbelow _ _
  · exact increment_word .long e

/-- No draw changes the increment. -/
theorem increment_of_draw (low high : Int) (e : Engine) :
    (left (e.draw low high)).increment = e.increment := by
  have hoffset := increment_of_offset (high - low).toNat e
  unfold draw
  split
  · rfl
  · split
    all_goals
      next ho =>
        rw [ho] at hoffset
        exact hoffset

/-- The state and the spare half as one word. -/
def code (e : Engine) : BitVec 161 :=
  e.state ++ (BitVec.ofBool e.spare.isSome ++ e.spare.getD 0)

/-- The engine with such a word and an increment. -/
def ofCode (increment : BitVec 128) (w : BitVec 161) : Engine :=
  ⟨w.extractLsb' 33 128, increment, if w.getLsbD 32 then some (w.extractLsb' 0 32) else none⟩

theorem ofCode_code (e : Engine) : ofCode e.increment e.code = e := by
  have hflag : e.code.getLsbD 32 = e.spare.isSome := by
    rw [code, BitVec.getLsbD_append, BitVec.getLsbD_append]
    simp
  have hspare : e.code.extractLsb' 0 32 = e.spare.getD 0 := by
    rw [code, BitVec.extractLsb'_append_eq_of_add_le (by decide),
      BitVec.extractLsb'_append_eq_of_add_le (by decide), BitVec.extractLsb'_eq_self]
  have hstate : e.code.extractLsb' 33 128 = e.state := by
    rw [code, BitVec.extractLsb'_append_eq_left]
  rw [ofCode, hflag, hspare, hstate]
  obtain ⟨state, increment, spare⟩ := e
  cases spare <;> rfl

/-- The engine as a generator. -/
def generator (seed : Nat) (e : Engine) : Generator where
  seed
  width := 161
  draws low high w :=
    match (ofCode e.increment w).draw low high with
    | .ok v e => .ok v e.code
    | .error f e => .error f e.code
  mem_range h := by
    split at h
    · next hok =>
      cases h
      exact draw_mem_range hok
    · cases h
  state := e.code

/-- The generator draws what the engine does. -/
theorem draw_generator (seed : Nat) (low high : Int) (e : Engine) :
    (e.generator seed).draw low high = match e.draw low high with
      | .ok v e => .ok v (e.generator seed)
      | .error f e => .error f (e.generator seed) := by
  have hsame : ∀ e' : Engine, e'.increment = e.increment →
      { e.generator seed with state := e'.code } = e'.generator seed := by
    intro e' h
    simp only [generator, h]
  have hincrement := increment_of_draw low high e
  rw [Generator.draw]
  simp only [generator, ofCode_code]
  cases hdraw : e.draw low high with
  | ok v e' =>
    rw [hdraw] at hincrement
    exact congrArg (EStateM.Result.ok v) (hsame e' hincrement)
  | error f e' =>
    rw [hdraw] at hincrement
    exact congrArg (EStateM.Result.error f) (hsame e' hincrement)

end Engine

/-- The generator of a seed. -/
def Generator.ofSeed (seed : Nat) : Generator := (Engine.ofSeed seed).generator seed

end DiceRoller
