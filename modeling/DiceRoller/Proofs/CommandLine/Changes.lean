/-
# What the arguments change

Taking the arguments one after the other sets flags one after the other, and
which flags are set to which texts does not depend on the flags that are there
already (`Taken.exists_changes`). So what holds of flags through all arguments
is proved of a list of changes (`Flags.setAll`), not of the ways in which
operands and dividers may stand between them.

Key definition: `Flags.setAll`.
Key theorems: `Taken.exists_changes`, `parse_eq_ok_iff`, `parse_induct`.
-/
import DiceRoller.CommandLine.Arguments
import DiceRoller.Proofs.Steps

namespace DiceRoller
namespace CommandLine

/-- The flags with the texts given to them one after the other. -/
def Flags.setAll (flags : Flags) : List (Flag × String) → Except Halt Flags
  | [] => .ok flags
  | (f, text) :: rest => do
    let flags ← flags.set f text
    flags.setAll rest

namespace Taken

variable {t t' : Taken} {pieces : List Piece}

/-- The pieces change the flags in the same way whatever flags are there, and
the rest of what is taken does not depend on them. -/
theorem exists_changes (h : t.take pieces = .ok t') : ∃ changes,
    t.flags.setAll changes = .ok t'.flags ∧ ∀ flags flags', flags.setAll changes = .ok flags' →
      Taken.take { t with flags } pieces = .ok { t' with flags := flags' } := by
  fun_induction Taken.take t pieces with
  | case1 t =>
    cases h
    refine ⟨[], rfl, ?_⟩
    rintro flags _ ⟨⟩
    rfl
  | case2 t text rest hspec ih | case6 t text rest hspec ih =>
    obtain ⟨changes, hset, hany⟩ := ih h
    refine ⟨changes, hset, fun flags flags' hflags => ?_⟩
    rw [Taken.take]
    exact (if_pos hspec).trans (hany flags flags' hflags)
  | case3 t text rest hspec ih | case7 t text rest hspec ih =>
    obtain ⟨changes, hset, hany⟩ := ih h
    refine ⟨changes, hset, fun flags flags' hflags => ?_⟩
    rw [Taken.take]
    exact (if_neg hspec).trans (hany flags flags' hflags)
  | case4 t text rest hrest hspec ih =>
    obtain ⟨changes, hset, hany⟩ := ih h
    refine ⟨changes, hset, fun flags flags' hflags => ?_⟩
    rw [Taken.take]
    · exact (if_pos hspec).trans (hany flags flags' hflags)
    · exact hrest
  | case5 t text rest hrest hspec ih =>
    obtain ⟨changes, hset, hany⟩ := ih h
    refine ⟨changes, hset, fun flags flags' hflags => ?_⟩
    rw [Taken.take]
    · exact (if_neg hspec).trans (hany flags flags' hflags)
    · exact hrest
  | case8 t rest hrest ih =>
    obtain ⟨changes, hset, hany⟩ := ih h
    refine ⟨changes, hset, fun flags flags' hflags => ?_⟩
    rw [Taken.take]
    · exact hany flags flags' hflags
    · exact hrest
  | case9 t text rest ih =>
    obtain ⟨changes, hset, hany⟩ := ih h
    exact ⟨changes, hset, hany⟩
  | case10 | case11 | case14 => cases h
  | case12 t f value rest ih | case13 t f value rest ih =>
    obtain ⟨next, hset, h⟩ := exceptBind_eq_ok_iff.1 h
    obtain ⟨changes, hchanges, hany⟩ := ih next h
    refine ⟨(f, value) :: changes, (exceptBind_of_ok hset).trans hchanges, ?_⟩
    intro flags flags' hflags
    obtain ⟨first, hfirst, hflags⟩ := exceptBind_eq_ok_iff.1 hflags
    rw [Taken.take]
    exact (exceptBind_of_ok hfirst).trans (hany first flags' hflags)

theorem finish_eq_ok_iff {args : Arguments} : t.finish = .ok args ↔
    t.spec = some args.spec ∧ t.extras = [] ∧ t.flags = args.flags := by
  obtain ⟨spec, flags, extras⟩ := t
  obtain ⟨spec', flags'⟩ := args
  unfold finish
  cases spec with
  | none => simp
  | some e => by_cases h : extras = [] <;> simp [h]

end Taken

theorem parse_eq_ok_iff {argv : List String} {args : Arguments} : parse argv = .ok args ↔
    ∃ pieces t, classifyAll argv = .ok pieces ∧ Taken.take {} pieces = .ok t ∧
      t.spec = some args.spec ∧ t.extras = [] ∧ t.flags = args.flags := by
  have hrest : ∀ pieces, (do let t ← Taken.take {} pieces; t.finish) = .ok args ↔
      ∃ t, Taken.take {} pieces = .ok t ∧ t.spec = some args.spec ∧ t.extras = [] ∧
        t.flags = args.flags := by
    intro pieces
    simp only [exceptBind_eq_ok_iff, Taken.finish_eq_ok_iff]
  unfold parse
  cases hc : classifyAll argv with
  | error r => simp
  | ok pieces => simpa using hrest pieces

/-- What is kept by each flag that is set is kept by all of them. -/
theorem Flags.setAll_induct {P : Flags → Prop}
    (hset : ∀ flags f text flags', flags.set f text = .ok flags' → P flags → P flags')
    {flags flags' : Flags} {changes : List (Flag × String)}
    (h : flags.setAll changes = .ok flags') (hP : P flags) : P flags' := by
  induction changes generalizing flags with
  | nil =>
    cases h
    exact hP
  | cons change changes ih =>
    obtain ⟨next, hnext, h⟩ := exceptBind_eq_ok_iff.1 h
    exact ih h (hset _ _ _ _ hnext hP)

/-- What holds of no flags and is kept by each flag that is set holds of the
flags of the arguments. -/
theorem parse_induct {P : Flags → Prop}
    (hset : ∀ flags f text flags', flags.set f text = .ok flags' → P flags → P flags')
    (hnone : P {}) {argv : List String} {args : Arguments} (hparse : parse argv = .ok args) :
    P args.flags := by
  obtain ⟨pieces, t, -, htake, -, -, hflags⟩ := parse_eq_ok_iff.1 hparse
  obtain ⟨changes, hchanges, -⟩ := Taken.exists_changes htake
  rw [← hflags]
  exact Flags.setAll_induct hset hchanges hnone

end CommandLine
end DiceRoller
