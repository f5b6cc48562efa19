/-
# A printed seed replays the run

A run without a seed prints the one it takes from the clock. The same
arguments with this seed in front of them give the same run, at any time, but
for the line with the seed (`run_replays`). This is so on any host whose log can
be set up: of the generator it takes only that it is made from the seed.

Two things make it so. A seed in front changes nothing in how the other
arguments are read, as long as none of them is a seed
(`Flags.setAll_withSeed`), and the flags ask for the same options with any
seed. And what follows the choice of the seed only adds to the screen
(`rollSeeded_appends`).

A seed from the clock is below the modulus, so it is its own remainder
(`Seed.normalize_generate`); seeds that differ by a multiple of the modulus, and
only those, give generators with the same seed (`Host.seed_eq_iff`).

Key theorems: `Flags.setAll_withSeed`, `parse_seed_cons`, `Host.seed_eq_iff`,
`run_replays`.
-/
import DiceRoller.Proofs.CommandLine.Agreement
import DiceRoller.Proofs.CommandLine.Changes
import DiceRoller.Proofs.Expression.Reading
import DiceRoller.Proofs.Hand.Step
import Mathlib.Data.Int.ModEq

namespace DiceRoller

/-! ### Seeds -/

namespace Seed

theorem normalize_normalize (a : Int) : normalize (normalize a) = normalize a := by
  rw [normalize_eq_iff]
  have hnonneg := Int.emod_nonneg a (b := modulus) (by decide)
  rw [normalize, Int.toNat_of_nonneg hnonneg, Int.emod_emod]

theorem normalize_generate (c : Clock) : normalize (generate c) = generate c :=
  normalize_normalize _

theorem writable_generate (c : Clock) : Numeral.writable (generate c : Int) = true := by
  have hlimit : Numeral.writable modulus = true := by decide +kernel
  exact writable_of_le (Int.natCast_nonneg _) (Int.le_of_lt (normalize_lt _)) hlimit

end Seed

namespace CommandLine

open Session

/-- Two numbers have generators with the same seed exactly if they are
congruent. -/
theorem Host.seed_eq_iff (host : Host) (a b : Int) : ∃ g g' : Generator,
    host.source a = .seeded g ∧ host.source b = .seeded g' ∧
      (g.seed = g'.seed ↔ a ≡ b [ZMOD 4294967295]) :=
  ⟨_, _, rfl, rfl, Seed.normalize_eq_iff⟩

/-! ### A seed in front of the arguments -/

/-- The flags with a seed. -/
def Flags.withSeed (flags : Flags) (n : Int) : Flags := { flags with seed := some (.value n) }

/-- A flag that leaves the seed empty is no seed, and is set beside any seed. -/
theorem Flags.set_withSeed {flags flags' : Flags} {f : Flag} {text : String}
    (h : flags.set f text = .ok flags') (hseed : flags'.seed = none) (n : Int) :
    flags.seed = none ∧ (flags.withSeed n).set f text = .ok (flags'.withSeed n) := by
  cases f <;> obtain ⟨v, hv, h⟩ := exceptBind_eq_ok_iff.1 h <;> cases h
  case seed => cases hseed
  all_goals exact ⟨hseed, exceptBind_of_ok hv⟩

/-- If no seed is set, one that was there before stays. -/
theorem Flags.setAll_withSeed {flags flags' : Flags} {changes : List (Flag × String)}
    (h : flags.setAll changes = .ok flags') (hseed : flags'.seed = none) (n : Int) :
    flags.seed = none ∧ (flags.withSeed n).setAll changes = .ok (flags'.withSeed n) := by
  induction changes generalizing flags with
  | nil =>
    cases h
    exact ⟨hseed, rfl⟩
  | cons change changes ih =>
    obtain ⟨next, hset, h⟩ := exceptBind_eq_ok_iff.1 h
    obtain ⟨hs, hrest⟩ := ih h
    obtain ⟨hs, hfirst⟩ := Flags.set_withSeed hset hs n
    exact ⟨hs, (exceptBind_of_ok hfirst).trans hrest⟩

theorem parse_seed_cons {argv : List String} {args : Arguments} (hparse : parse argv = .ok args)
    (hseed : args.flags.seed = none) {n : Int} (hn : Numeral.writable n = true) :
    parse (("--seed=" ++ toString n) :: argv) =
      .ok { args with flags := args.flags.withSeed n } := by
  obtain ⟨pieces, t, hclassify, htake, hspec, hextras, hflags⟩ := parse_eq_ok_iff.1 hparse
  obtain ⟨changes, hchanges, hany⟩ := Taken.exists_changes htake
  rw [← hflags] at hseed
  have hargument : "--seed=" ++ toString n = (Setting.seed n).argument := rfl
  have hclassify' := classifyAll_settings hclassify [.seed n]
  have htake' : Taken.take {} ([Setting.seed n].map (fun s => .switch (.flag s.flag) (some s.text))
      ++ pieces) = .ok { t with flags := t.flags.withSeed n } := by
    rw [take_settings]
    · exact hany _ _ (Flags.setAll_withSeed hchanges hseed n).2
    · intro s hs
      rw [List.mem_singleton.1 hs]
      exact all_writable_singleton hn
  refine parse_eq_ok_iff.2 ⟨_, _, hclassify', htake', hspec, hextras, ?_⟩
  show t.flags.withSeed n = args.flags.withSeed n
  rw [hflags]

/-! ### The run and its replay -/

variable {host : Host} {argv : List String} {args : Arguments}

/-- The seed is not asked for by the options, so it may stand among the flags or
not once it is chosen. -/
theorem rollSeeded_withSeed (n : Int) (seed : Given Int) :
    rollSeeded host { args with flags := args.flags.withSeed n } seed =
      rollSeeded host args seed := rfl

theorem runOn_of_no_seed (hlog : host.log.problem = none) (clock : Clock)
    (hparse : parse argv = .ok args) (hseed : args.flags.seed = none) :
    runOn host argv clock {} = rollSeeded host args (.value (Seed.generate clock))
      ⟨"seed=" ++ toString (Seed.generate clock) ++ "\n", "", []⟩ := by
  have hchoose : chooseSeed none clock {} = .ok (.value (Seed.generate clock))
      ⟨"" ++ ("seed=" ++ toString (Seed.generate clock)) ++ "\n", "", []⟩ := rfl
  rw [String.empty_append] at hchoose
  rw [runOn, hparse]
  show rollArguments host args clock {} = _
  rw [rollArguments_eq hlog, hseed, bind_of_ok hchoose]

/-- A run without a seed is the run with the seed from its clock in front, but for
the line in which it prints this seed; and numbers give generators with the same
seed exactly if they are congruent. -/
theorem run_replays (hlog : host.log.problem = none) (clock clock' : Clock)
    (hparse : parse argv = .ok args) (hseed : args.flags.seed = none) :
    (∃ n : Int, n = Seed.generate clock ∧ 0 ≤ n ∧ n < 4294967295 ∧ Seed.normalize n = n ∧
      runOn host argv clock {} = Screen.resultAfter ⟨"seed=" ++ toString n ++ "\n", "", []⟩
        (runOn host (("--seed=" ++ toString n) :: argv) clock' {})) ∧
      ∀ a b : Int, ∃ g g' : Generator, host.source a = .seeded g ∧ host.source b = .seeded g' ∧
        (g.seed = g'.seed ↔ a ≡ b [ZMOD 4294967295]) := by
  refine ⟨⟨Seed.generate clock, rfl, Int.natCast_nonneg _, Seed.normalize_lt _, ?_, ?_⟩,
    host.seed_eq_iff⟩
  · rw [Seed.normalize_generate]
  · have hparse' := parse_seed_cons hparse hseed (Seed.writable_generate clock)
    rw [runOn_of_parse hlog clock' hparse' rfl, rollSeeded_withSeed,
      runOn_of_no_seed hlog clock hparse hseed]
    exact rollSeeded_appends _ _ _ _

/-! ### Two dice -/

theorem exists_evaluate_two_dice : ∃ trace,
    evaluate {} "2d6" { source := Seed.source 3835213770 } = .ok ⟨8, ["+2d6 [5,3]=8"]⟩ trace := by
  let t : DiceTerm := ⟨1, 2, 6, 0, by decide, by decide, by decide⟩
  have hread : readTerms "2d6" = .ok [.dice t] := by decide +kernel
  let h : Hand := { rolls := [5, 3] }
  obtain ⟨s, hroll⟩ : ∃ s, Options.rollTerm {} t (Seed.source 3835213770) = .ok h s := by
    have hrun : EStateM.run' (Options.rollTerm {} t) (Seed.source 3835213770) = some h := by
      unfold Options.rollTerm
      rw [Options.modifiersFor_eq]
      decide +kernel
    exact exists_of_run' hrun
  have hw : (t.textNumbers ++ h.textNumbers).all Numeral.writable = true := by
    rw [Hand.textNumbers, Hand.value, Hand.kept_eq]
    decide +kernel
  have hvalue : h.value = 8 := by
    rw [Hand.value, Hand.kept_eq]
    decide +kernel
  have htext : h.text t.text = "+2d6 [5,3]=8" := by
    rw [Hand.text, hvalue, Hand.annotated, Hand.marked_eq]
    decide +kernel
  have hok := evaluate_of_rollTerm (T := { source := Seed.source 3835213770 }) hread hroll hw
  rw [hvalue, htext] at hok
  exact ⟨_, hok⟩

theorem parse_two_dice : parse ["--seed=3835213770", "2d6"] =
    .ok ⟨"2d6", { seed := some (.value 3835213770) }⟩ := by decide +kernel

theorem exists_runOn_two_dice (clock : Clock) :
    ∃ log, runOn {} ["--seed=3835213770", "2d6"] clock {} =
      .ok 0 ⟨"Roll 2d6 = 8\nParts: +2d6 [5,3]=8\n", "", log⟩ := by
  obtain ⟨trace, he⟩ := exists_evaluate_two_dice
  have hw : Numeral.writable (8 : Int) = true := by decide +kernel
  let args : Arguments := ⟨"2d6", { seed := some (.value 3835213770) }⟩
  have ho : args.flags.options [] = .ok {} [] := rfl
  have hend := rollSeeded_of_ok (s := {}) ho (sourceOf_value {} 3835213770) he hw
  rw [runOn_of_parse rfl clock parse_two_dice rfl]
  exact ⟨_, hend⟩

/-- Two dice, and the same two dice the next day. -/
theorem run_replays_two_dice :
    let host : Host := {}
    host.log.problem = none ∧ parse ["2d6"] = .ok ⟨"2d6", {}⟩ ∧
      ∃ log, runOn host ["2d6"] (.ofParts 1700000000 654321) {} =
          .ok 0 ⟨"seed=3835213770\nRoll 2d6 = 8\nParts: +2d6 [5,3]=8\n", "", log⟩ ∧
        runOn host ["--seed=3835213770", "2d6"] (.ofParts 1700086400 0) {} =
          .ok 0 ⟨"Roll 2d6 = 8\nParts: +2d6 [5,3]=8\n", "", log⟩ := by
  intro host
  have hlog : host.log.problem = none := rfl
  have hparse : parse ["2d6"] = .ok ⟨"2d6", {}⟩ := by decide +kernel
  obtain ⟨⟨n, hn, -, -, -, hrun⟩, -⟩ := run_replays hlog (.ofParts 1700000000 654321)
    (.ofParts 1700086400 0) hparse rfl
  obtain rfl : n = 3835213770 := hn.trans (by decide +kernel)
  have htext : toString (3835213770 : Int) = "3835213770" := by decide +kernel
  have hargument : "--seed=" ++ "3835213770" = "--seed=3835213770" := by decide +kernel
  obtain ⟨log, hreplay⟩ := exists_runOn_two_dice (.ofParts 1700086400 0)
  rw [htext, hargument, hreplay] at hrun
  exact ⟨hlog, hparse, log, hrun, hreplay⟩

end CommandLine
end DiceRoller
