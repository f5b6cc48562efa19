/-
# The arguments of a command

The classified arguments are taken from left to right. The first operand is
the expression; a divider next to it is swallowed with it. A flag takes the
value in its own word or the operand after it, and the last value given to a
flag counts. What is left over is refused in the end.

A value given in the word of its flag that is only `--` counts as no value: the
flag is then given but empty (`Given.blank`).

Key definitions: `Given`, `Flags`, `Arguments`, `Halt`, `Taken.take`, `parse`.
-/
import DiceRoller.CommandLine.Argument

namespace DiceRoller
namespace CommandLine

/-- The value of a flag that was given. -/
inductive Given (α : Type) where
  | blank
  | value (a : α)
  deriving DecidableEq, Repr

/-- The flags that were given. -/
structure Flags where
  seed : Option (Given Int) := none
  dropLowest : Option (Given Nat) := none
  dropHighest : Option (Given Nat) := none
  reroll : Option (Given Int) := none
  explode : Option (Given Explode) := none
  advantage : Option (Given (Int × Int)) := none
  disadvantage : Option (Given (Int × Int)) := none
  deriving DecidableEq, Repr

/-- The arguments of a command. -/
structure Arguments where
  spec : String
  flags : Flags
  deriving DecidableEq, Repr

/-- Why no arguments come out. -/
inductive Halt where
  /-- Help was asked for. -/
  | help
  | refused (r : Refusal)
  deriving DecidableEq, Repr

/-- Reads the text given to a flag. -/
def readGiven {α : Type} (flag : Flag) (read : String → Except ValueProblem α) (text : String) :
    Except Halt (Given α) :=
  if text = "--" then .ok .blank
  else match read text with
    | .ok a => .ok (.value a)
    | .error p => .error (.refused (.badValue flag p))

/-- The flags with one more given. -/
def Flags.set (flags : Flags) (flag : Flag) (text : String) : Except Halt Flags :=
  match flag with
  | .seed => do
    let v ← readGiven flag Value.whole text
    return { flags with seed := some v }
  | .dropLowest => do
    let v ← readGiven flag Value.count text
    return { flags with dropLowest := some v }
  | .dropHighest => do
    let v ← readGiven flag Value.count text
    return { flags with dropHighest := some v }
  | .reroll => do
    let v ← readGiven flag Value.whole text
    return { flags with reroll := some v }
  | .explode => do
    let v ← readGiven flag Value.explosion text
    return { flags with explode := some v }
  | .advantage => do
    let v ← readGiven flag Value.pick text
    return { flags with advantage := some v }
  | .disadvantage => do
    let v ← readGiven flag Value.pick text
    return { flags with disadvantage := some v }

/-- What has been taken so far. -/
structure Taken where
  spec : Option String := none
  flags : Flags := {}
  extras : List String := []
  deriving DecidableEq, Repr

namespace Taken

/-- One more argument is left over. -/
def leave (t : Taken) (argument : String) : Taken := { t with extras := t.extras ++ [argument] }

/-- The value given to help in its own word: by its short name help may be
asked for again and again in one word. -/
def helpWith (short : Bool) (value : String) : Halt :=
  if short && value != "" then
    match value.toList.dropWhile (· == 'h') with
    | [] => .help
    | rest => .refused (.helpValue (String.ofList rest))
  else .refused (.helpValue value)

/-- An option of help, with its value. -/
def help (short : Bool) : Option String → Halt
  | none => .help
  | some value => helpWith short value

/-- Takes the operand as the expression. -/
def withSpec (t : Taken) (text : String) : Taken := { t with spec := some text }

/-- Takes the pieces from left to right. -/
def take : Taken → List Piece → Except Halt Taken
  | t, [] => .ok t
  | t, .operand text :: .divider :: rest =>
    if t.spec.isNone then take (t.withSpec text) rest
    else take (t.leave text) (.divider :: rest)
  | t, .operand text :: rest =>
    if t.spec.isNone then take (t.withSpec text) rest else take (t.leave text) rest
  | t, .divider :: .operand text :: rest =>
    if t.spec.isNone then take (t.withSpec text) rest
    else take (t.leave "--") (.operand text :: rest)
  | t, .divider :: rest => take (t.leave "--") rest
  | t, .unknown text :: rest => take (t.leave text) rest
  | _, .switch .shortHelp value :: _ => .error (help true value)
  | _, .switch .help value :: _ => .error (help false value)
  | t, .switch (.flag f) (some value) :: rest => do
    let flags ← t.flags.set f value
    take { t with flags } rest
  | t, .switch (.flag f) none :: .operand value :: rest => do
    let flags ← t.flags.set f value
    take { t with flags } rest
  | _, .switch (.flag f) none :: _ => .error (.refused (.noValue f))

/-- What was taken, if there is an expression and nothing is left over. -/
def finish (t : Taken) : Except Halt Arguments :=
  match t.spec with
  | none => .error (.refused .noSpec)
  | some spec =>
    if t.extras = [] then .ok ⟨spec, t.flags⟩ else .error (.refused (.unrecognized t.extras))

end Taken

/-- The arguments of a command line. -/
def parse (argv : List String) : Except Halt Arguments :=
  match classifyAll argv with
  | .error r => .error (.refused r)
  | .ok pieces => do
    let taken ← Taken.take {} pieces
    taken.finish

end CommandLine
end DiceRoller
