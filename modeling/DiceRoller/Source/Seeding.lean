/-
# Seeding: from one number to the first state of a generator

A seed is spread over a pool of four words of 32 bits. Its first four words,
which are zero beyond the seed, are hashed in; then every word of the pool is
mixed into every other one, and each further word of the seed into all of them.
The pool is read out twice into eight words, each hashed once more. The
constant of the hash changes with every use, so the pieces are threaded through
in a fixed order.

Key definitions: `Seeding.hash`, `Seeding.mix`, `Seeding.entropy`,
`Seeding.pool`, `Seeding.words`.
-/

namespace DiceRoller
namespace Seeding

/-- A word of the pool. -/
abbrev Word := BitVec 32

/-- A word with its upper half mixed into the lower one. -/
def fold (w : Word) : Word := w ^^^ (w >>> 16)

/-- Hashes a word with the constant, which grows by `factor`; the result and
the next constant. -/
def hashBy (factor constant v : Word) : Word × Word :=
  let next := constant * factor
  (fold ((v ^^^ constant) * next), next)

/-- The hash by which words enter the pool. -/
def hash (constant v : Word) : Word × Word := hashBy 0x931e8875 constant v

/-- Two words of the pool become one. -/
def mix (x y : Word) : Word := fold (0xca01f9dd * x - 0x4973f715 * y)

/-- The number of words in the pool. -/
def poolSize : Nat := 4

/-- The seed in words, the lowest first, and zeros up to the size of the pool. -/
def entropy (seed : Nat) : List Word :=
  let count := max poolSize (Nat.log2 seed / 32 + 1)
  (List.range count).map fun i => BitVec.ofNat 32 (seed >>> (32 * i))

/-- Hashes the words one after the other; the results and the next constant. -/
def hashAll : Word → List Word → List Word × Word
  | c, [] => ([], c)
  | c, w :: ws =>
    let (h, c) := hash c w
    let (hs, c) := hashAll c ws
    (h :: hs, c)

/-- Mixes a word into the one at a place of the pool. -/
def mixInto (state : List Word × Word) (place : Nat) (w : Word) : List Word × Word :=
  let (pool, c) := state
  let (h, c) := hash c w
  (pool.set place (mix (pool.getD place 0) h), c)

/-- The pairs of different places of the pool in the order in which the first
is mixed into the second. -/
def places : List (Nat × Nat) :=
  (List.range poolSize).flatMap fun i =>
    ((List.range poolSize).filter (· != i)).map fun j => (i, j)

/-- Mixes the word at the first place into the word at the second one. -/
def mixPlaces (state : List Word × Word) (place : Nat × Nat) : List Word × Word :=
  mixInto state place.2 (state.1.getD place.1 0)

/-- Mixes a word that the pool has no place for into every place. -/
def mixFurther (state : List Word × Word) (w : Word) : List Word × Word :=
  (List.range poolSize).foldl (fun state place => mixInto state place w) state

/-- The pool of a seed. -/
def pool (seed : Nat) : List Word :=
  let ws := entropy seed
  let state := hashAll 0x43b0d7e5 (ws.take poolSize)
  ((ws.drop poolSize).foldl mixFurther (places.foldl mixPlaces state)).1

/-- Hashes the words one after the other, starting with the given constant. -/
def readOut : Word → List Word → List Word
  | _, [] => []
  | c, w :: ws =>
    let (h, c) := hashBy 0x58f38ded c w
    h :: readOut c ws

/-- The eight words that a seed is spread to. -/
def words (seed : Nat) : List Word := readOut 0x8b51f9dd (pool seed ++ pool seed)

/-- The eight words as four of 64 bits, the lower half first. -/
def longWords (seed : Nat) : List (BitVec 64) :=
  let ws := words seed
  (List.range 4).map fun j => (ws.getD (2 * j + 1) 0) ++ (ws.getD (2 * j) 0)

end Seeding
end DiceRoller
