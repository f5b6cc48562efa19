/-
# Draws from a live engine come to an end

A draw throws words away, and a chain of draws goes on as long as each of them
triggers the next one; the model ends both with a fault when they have gone on
past all states of the engine. A live engine runs through all its states,
so it comes to the states 0 and 1 before. Their words are the numbers 0 and 1,
and one of these two is never thrown away and makes a die show its lowest face
(`Engine.target`).

`Engine.Near z n e` says that the state `z` is no more than `n` words ahead,
where each step makes two of them and the spare half of a word is one. The next
word is `z`, or it brings `z` nearer (`Engine.Near.word`). So does a roll of a
die, however many words it throws away: it shows the lowest face, or brings the
state that makes it do so nearer (`Engine.Near.draw`). Hence all dice that fit
the engine can be rolled (`Source.Live.draw`), and others cannot
(`Source.Live.draw_of_wide`).

Key definitions: `Engine.Near`, `Engine.target`, `Source.Live`,
`Source.Near`.
Key theorems: `Engine.Near.word`, `Engine.Near.draw`,
`Source.Live.of_gives`, `Source.Live.draw`, `Source.Live.draw_of_wide`.
-/
import DiceRoller.Proofs.Source.Draws
import DiceRoller.Proofs.Source.Period
import DiceRoller.Seed
import Mathlib.Tactic.IntervalCases

namespace DiceRoller
namespace Engine

open Function

/-! ### Words -/

/-- The word of a state. -/
def output (x : BitVec 128) : BitVec 64 :=
  (x.extractLsb' 64 64 ^^^ x.extractLsb' 0 64).rotateRight (x >>> 122).toNat

/-- The engine in the next state, with what is kept of a word. -/
def next (e : Engine) (spare : Option (BitVec 32)) : Engine :=
  { e with state := advance e.increment e.state, spare }

variable {z n m : Nat} {e : Engine} {spare : Option (BitVec 32)} {size : Size}

@[simp] theorem next_state : (e.next spare).state = advance e.increment e.state := by rw [next]

@[simp] theorem next_increment : (e.next spare).increment = e.increment := by rw [next]

theorem long_eq (e : Engine) :
    e.long = (output (advance e.increment e.state), e.next e.spare) := by
  rw [long, step_eq, output, next]

theorem word_long (e : Engine) :
    e.word .long = ((output (advance e.increment e.state)).toNat, e.next e.spare) := by
  rw [word, long_eq]

theorem word_short_of_some {w : BitVec 32} (h : e.spare = some w) :
    e.word .short = (w.toNat, { e with spare := none }) := by
  rw [word, short, h]

theorem word_short_of_none (h : e.spare = none) : e.word .short =
    (((output (advance e.increment e.state)).extractLsb' 0 32).toNat,
      e.next (some ((output (advance e.increment e.state)).extractLsb' 32 32))) := by
  rw [word, short, h, long_eq, next, next]

theorem output_of_le_one (hz : z ≤ 1) :
    output (BitVec.ofNat 128 z) = BitVec.ofNat 64 z := by
  interval_cases z <;> decide

/-! ### States to come -/

/-- How far the spare half of a word puts off the next step. -/
def delay (e : Engine) : Nat := if e.spare.isSome then 1 else 0

/-- The engine comes to the state `z`, which is at most so many words away:
a step makes two of them. -/
def Near (z n : Nat) (e : Engine) : Prop :=
  ∃ k, (advance e.increment)^[k] (advance e.increment e.state) = BitVec.ofNat 128 z ∧
    2 * (k + 1) + e.delay ≤ n

theorem not_near_zero : ¬ e.Near z 0 := by
  rintro ⟨k, -, hk⟩
  omega

/-- The next step comes to the state `z` or brings it nearer, whatever is kept of
the word. -/
theorem Near.next (h : e.Near z (n + 1)) (spare : Option (BitVec 32)) :
    advance e.increment e.state = BitVec.ofNat 128 z ∨ (e.next spare).Near z n := by
  obtain ⟨k, hk, hn⟩ := h
  cases k with
  | zero => exact .inl hk
  | succ k =>
    rw [iterate_succ_apply] at hk
    refine .inr ⟨k, by rw [next_increment, next_state, hk], ?_⟩
    have hdelay : (e.next spare).delay ≤ 1 := by
      unfold delay
      split <;> omega
    omega

/-- The next word is the number `z`, or brings the state `z` nearer. -/
theorem Near.word (hz : z ≤ 1) (h : e.Near z (n + 1)) (size : Size) :
    (e.word size).1 = z ∨ (e.word size).2.Near z n := by
  cases size with
  | long =>
    rw [word_long]
    refine (h.next e.spare).imp_left fun hstate => ?_
    show (output (advance e.increment e.state)).toNat = z
    rw [hstate, output_of_le_one hz, BitVec.toNat_ofNat]
    omega
  | short =>
    cases hspare : e.spare with
    | none =>
      rw [word_short_of_none hspare]
      refine (h.next _).imp_left fun hstate => ?_
      show ((output (advance e.increment e.state)).extractLsb' 0 32).toNat = z
      rw [hstate, output_of_le_one hz, BitVec.extractLsb'_toNat, BitVec.toNat_ofNat]
      simp
      omega
    | some w =>
      rw [word_short_of_some hspare]
      obtain ⟨k, hk, hn⟩ := h
      have hdelay : e.delay = 1 := by rw [delay, hspare]; rfl
      have hnone : delay { e with spare := none } = 0 := rfl
      right
      show Near z n { e with spare := none }
      exact ⟨k, hk, by omega⟩

/-- Every state is near to a live engine. -/
theorem Live.near (he : e.Live) (z : Nat) : e.Near z (Nat.pow 2 129 + 1) := by
  obtain ⟨half, hhalf⟩ := he
  obtain ⟨k, hlt, hk⟩ := exists_iterate hhalf (advance e.increment e.state) (BitVec.ofNat 128 z)
  refine ⟨k, hk, ?_⟩
  have hdelay : e.delay ≤ 1 := by
    unfold delay
    split <;> omega
  have hpow : Nat.pow 2 129 = 2 * 2 ^ 128 := by norm_num
  omega

/-! ### Draws -/

theorem retry_succ (size : Size) (count threshold tries : Nat) (e : Engine) :
    retry size count threshold (tries + 1) e =
      if (e.word size).1 * count % size.count < threshold then
        retry size count threshold tries (e.word size).2
      else .ok ((e.word size).1 * count / size.count) (e.word size).2 := by
  rw [retry]

/-- Words are thrown away until one is kept, at the latest when the state `z`
comes up, whose word gives the result 0. If another word is kept, the state is
nearer than before. -/
theorem Near.retry {count threshold tries : Nat} (hz : z ≤ 1) (h : e.Near z n) (hn : n ≤ tries)
    (hkept : threshold ≤ z * count % size.count) (hzero : z * count / size.count = 0) :
    ∃ v e', retry size count threshold tries e = .ok v e' ∧
      (v = 0 ∨ ∃ m < n, e'.Near z m) := by
  induction tries generalizing n e with
  | zero =>
    obtain rfl := Nat.le_zero.1 hn
    exact absurd h not_near_zero
  | succ tries ih =>
    cases n with
    | zero => exact absurd h not_near_zero
    | succ n =>
      rw [retry_succ]
      rcases h.word hz size with hword | hnear
      · rw [hword, if_neg (by omega)]
        exact ⟨_, _, rfl, .inl hzero⟩
      · by_cases hlow : (e.word size).1 * count % size.count < threshold
        · obtain ⟨v, e', hok, hv⟩ := ih hnear (by omega)
          rw [if_pos hlow]
          exact ⟨v, e', hok, hv.imp_right fun ⟨m, hm, hnear'⟩ => ⟨m, by omega, hnear'⟩⟩
        · rw [if_neg hlow]
          exact ⟨_, _, rfl, .inr ⟨n, by omega, hnear⟩⟩

/-- The word 1 is always kept, and gives the result 0. -/
theorem Near.below {count : Nat} (h : e.Near 1 n) (hn : n ≤ stateCount) (hpos : 0 < count)
    (hcount : count < size.count) :
    ∃ v e', below size count e = .ok v e' ∧ (v = 0 ∨ ∃ m < n, e'.Near 1 m) := by
  refine h.retry (Nat.le_refl 1) hn ?_ ?_
  · rw [Nat.one_mul, Nat.mod_eq_of_lt hcount]
    exact Nat.le_of_lt (Nat.mod_lt _ hpos)
  · rw [Nat.one_mul, Nat.div_eq_of_lt hcount]

/-- The state whose word makes a die with the sides show its lowest face. Only a
word of its own for each face is not reduced, and then the word 0 does. -/
def target (sides : Nat) : Nat := if sides = Size.short.count then 0 else 1

theorem Near.offset {sides : Nat} (h : e.Near (target sides) n) (hn : n ≤ stateCount)
    (htwo : 2 ≤ sides) (hfits : (sides : Int) ≤ highest) :
    ∃ v e', offset (sides - 1) e = .ok v e' ∧ (v = 0 ∨ ∃ m < n, e'.Near (target sides) m) := by
  have hwide : sides - 1 + 1 = sides := by omega
  have hlong : sides < Size.long.count := by
    have hcount : (Size.long.count : Int) = highest * 2 + 2 := by decide
    unfold highest at *
    omega
  have htarget : sides ≠ Size.short.count → target sides = 1 := fun hne => if_neg hne
  rw [Engine.offset, if_neg (by omega), hwide]
  by_cases hshort : sides < Size.short.count
  · rw [htarget hshort.ne] at h ⊢
    rw [if_pos hshort]
    exact h.below hn (by omega) hshort
  rw [if_neg hshort]
  by_cases hequal : sides = Size.short.count
  · have hzero : target sides = 0 := if_pos hequal
    rw [if_pos hequal]
    rw [hzero] at h ⊢
    cases n with
    | zero => exact absurd h not_near_zero
    | succ n =>
      exact ⟨_, _, rfl, (h.word (Nat.zero_le 1) .short).imp_right fun hnear => ⟨n, by omega, hnear⟩⟩
  · rw [htarget hequal] at h ⊢
    rw [if_neg hequal, if_pos hlong]
    exact h.below hn (by omega) hlong

/-- A die that fits the engine is rolled. If it does not show its lowest
face, then the state that makes it do so is nearer than before. -/
theorem Near.draw {sides : Nat} (h : e.Near (target sides) n) (hn : n ≤ stateCount)
    (htwo : 2 ≤ sides) (hfits : (sides : Int) ≤ highest) : ∃ v e', e.draw 1 sides = .ok v e' ∧
      (v = 1 ∨ ∃ m < n, e'.Near (target sides) m) := by
  have hproblem : rangeProblem? 1 sides = none := by
    unfold rangeProblem? lowest
    grind
  have hspan : ((sides : Int) - 1).toNat = sides - 1 := by omega
  obtain ⟨v, e', hok, hv⟩ := h.offset hn htwo hfits
  rw [Engine.draw, hproblem]
  simp only [hspan, hok]
  refine ⟨_, _, rfl, hv.imp_left ?_⟩
  rintro rfl
  rfl

/-! ### What draws leave -/

theorem Live.of_draw {low high v : Int} {e' : Engine} (he : e.Live)
    (h : e.draw low high = .ok v e') : e'.Live := by
  have hincrement := increment_of_draw low high e
  rw [h] at hincrement
  obtain ⟨half, hhalf⟩ := he
  exact ⟨half, hincrement.trans hhalf⟩

end Engine

namespace Source

/-- The source draws from a live engine. -/
def Live (s : Source) : Prop :=
  ∃ (seed : Nat) (e : Engine), s = .seeded (e.generator seed) ∧ e.Live

variable {s s' : Source} {m : Int} {vs : List Int} {sides n : Nat}

theorem draw_engine (seed : Nat) (low high : Int) (e : Engine) :
    draw low high (.seeded (e.generator seed)) = match e.draw low high with
      | .ok v e => .ok v (.seeded (e.generator seed))
      | .error f e => .error f (.seeded (e.generator seed)) := by
  rw [draw, Engine.draw_generator]
  cases e.draw low high <;> rfl

theorem Live.horizon_eq (hs : s.Live) : s.horizon = Engine.stateCount := by
  obtain ⟨_, _, rfl, -⟩ := hs
  rfl

theorem Live.of_gives (hs : s.Live) (hg : s.Gives m vs s') : s'.Live := by
  induction hg with
  | nil => exact hs
  | cons hd _ ih =>
    obtain ⟨seed, e, rfl, he⟩ := hs
    rw [draw_engine] at hd
    split at hd
    · next hok =>
      cases hd
      exact ih ⟨_, _, rfl, he.of_draw hok⟩
    · cases hd

/-- The source comes to the state that makes a die show its lowest face. -/
def Near (sides n : Nat) (s : Source) : Prop :=
  ∃ (seed : Nat) (e : Engine), s = .seeded (e.generator seed) ∧ e.Live ∧
    e.Near (Engine.target sides) n

theorem Near.draw (h : s.Near sides n) (hn : n ≤ Engine.stateCount) (htwo : 2 ≤ sides)
    (hfits : (sides : Int) ≤ Engine.highest) :
    ∃ v s', s.draw 1 sides = .ok v s' ∧ (v = 1 ∨ ∃ m < n, s'.Near sides m) := by
  obtain ⟨seed, e, rfl, he, hnear⟩ := h
  obtain ⟨v, e', hok, hv⟩ := hnear.draw hn htwo hfits
  refine ⟨v, .seeded (e'.generator seed), ?_, hv.imp_right fun ⟨m, hm, hnear'⟩ => ?_⟩
  · rw [draw_engine, hok]
  · exact ⟨m, hm, seed, e', rfl, he.of_draw hok, hnear'⟩

/-- No state is further away than all of them. -/
theorem Live.near (hs : s.Live) (sides : Nat) : s.Near sides (Nat.pow 2 129 + 1) := by
  obtain ⟨seed, e, rfl, he⟩ := hs
  exact ⟨seed, e, rfl, he, he.near _⟩

theorem steps_le_stateCount : Nat.pow 2 129 + 1 ≤ Engine.stateCount := by decide +kernel

theorem Live.draw (hs : s.Live) (htwo : 2 ≤ sides) (hfits : (sides : Int) ≤ Engine.highest) :
    ∃ v s', s.draw 1 sides = .ok v s' ∧ s'.Live := by
  obtain ⟨v, s', hok, -⟩ := (hs.near sides).draw steps_le_stateCount htwo hfits
  exact ⟨v, s', hok, hs.of_gives (.cons hok .nil)⟩

theorem Live.draw_of_wide (hs : s.Live) (hwide : Engine.highest < sides) :
    s.draw 1 sides = .error (.badRange .highTooLarge) s := by
  obtain ⟨seed, e, rfl, -⟩ := hs
  have hproblem : Engine.rangeProblem? 1 sides = some .highTooLarge := by
    unfold Engine.rangeProblem? Engine.lowest
    rw [if_neg (by decide), if_pos hwide]
  rw [draw_engine, Engine.draw, hproblem]

theorem Live.exists_gives (hs : s.Live) (htwo : 2 ≤ sides)
    (hfits : (sides : Int) ≤ Engine.highest) (n : Nat) :
    ∃ vs s', vs.length = n ∧ s.Gives sides vs s' := by
  induction n generalizing s with
  | zero => exact ⟨[], s, rfl, .nil⟩
  | succ n ih =>
    obtain ⟨v, s₁, hd, hs₁⟩ := hs.draw htwo hfits
    obtain ⟨vs, s', hl, hg⟩ := ih hs₁
    exact ⟨v :: vs, s', by rw [List.length_cons, hl], .cons hd hg⟩

end Source

theorem Seed.source_live (seed : Int) : (Seed.source seed).Live :=
  ⟨_, _, rfl, Engine.ofSeed_live _⟩

end DiceRoller
