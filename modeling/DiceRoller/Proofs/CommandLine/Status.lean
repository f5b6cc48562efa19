/-
# The status says what has been printed

A run whose log can be set up and that asks for no unbounded explosion ends. It
ends with status 0 exactly if it has printed the help text, or a total and its
parts, and with status 1 exactly if it has printed one error and no total; or a
fault from outside the library escapes it (`run_reports`).

No fault of the library escapes, and those that do have few causes
(`Arguments.Escapes`): a seed or a pick without a value, a run of digits that is
too long to be read, dice with more sides than the engine can draw, and dice
or a total that can come to a number that is too long to be written. They leave
nothing among the errors, but for the total: it is entered into the log before
it is printed, and the log complains of it. One of them is enough for a run to
have no status (`not_exists_status_of_many_sides`).

Key definitions: `SeedLine`, `Screen.Reported`, `Arguments.Escapes`.
Key theorems: `report_ended`, `rollSeeded_ended`, `run_reports`.
-/
import DiceRoller.Proofs.CommandLine.Agreement
import DiceRoller.Proofs.CommandLine.Asked
import DiceRoller.Proofs.CommandLine.Replay
import DiceRoller.Proofs.Expression.Seeded

namespace DiceRoller
namespace CommandLine

open Session

/-! ### What a screen shows -/

/-- There is nothing, or a line with a seed. -/
def SeedLine (text : String) : Prop := text = "" ∨ ∃ n : Nat, text = "seed=" ++ toString n ++ "\n"

namespace Screen

variable {s : Screen}

/-- The help text has been printed. -/
def ShowsHelp (s : Screen) : Prop := s.stdout = Help.text ++ "\n" ∧ s.stderr = ""

/-- A total and its parts have been printed. -/
def ShowsRoll (s : Screen) : Prop :=
  ∃ (front spec : String) (total : Int) (parts : List String), SeedLine front ∧
    s.stdout = front ++ ("Roll " ++ spec ++ " = " ++ toString total ++ "\n" ++
      ("Parts: " ++ " ".intercalate parts ++ "\n")) ∧
    s.stderr = ""

/-- One error has been printed, and no total. -/
def ShowsError (s : Screen) : Prop :=
  SeedLine s.stdout ∧ ∃ message, s.stderr = "Error: " ++ message ++ "\n"

/-- The status says what has been printed. -/
structure Reported (s : Screen) (status : Nat) : Prop where
  zero_or_one : status = 0 ∨ status = 1
  zero_iff : status = 0 ↔ s.ShowsHelp ∨ s.ShowsRoll
  one_iff : status = 1 ↔ s.ShowsError

theorem ShowsError.stderr_ne_empty (h : s.ShowsError) : s.stderr ≠ "" := by
  obtain ⟨-, message, hmessage⟩ := h
  rw [hmessage]
  simp

theorem stderr_eq_empty (h : s.ShowsHelp ∨ s.ShowsRoll) : s.stderr = "" := by
  rcases h with h | ⟨_, _, _, _, -, -, h⟩
  · exact h.2
  · exact h

theorem Reported.zero (h : s.ShowsHelp ∨ s.ShowsRoll) : s.Reported 0 where
  zero_or_one := .inl rfl
  zero_iff := iff_of_true rfl h
  one_iff := iff_of_false nofun fun herror => herror.stderr_ne_empty (stderr_eq_empty h)

theorem Reported.one (h : s.ShowsError) : s.Reported 1 where
  zero_or_one := .inr rfl
  zero_iff := iff_of_false nofun fun hshown => h.stderr_ne_empty (stderr_eq_empty hshown)
  one_iff := iff_of_true rfl h

end Screen

/-! ### How a run ends -/

/-- What makes a fault escape that is not one of the library, and what it leaves among
the errors. -/
inductive Arguments.Escapes (args : Arguments) (setup : LogSetup) : Fault → String → Prop
  /-- The seed has no value. -/
  | noSeed {f : Fault} : args.flags.seed = some .blank →
      Host.sourceOf { log := setup } .blank = .error f → Escapes args setup f ""
  /-- A pick has no value. -/
  | noPick {f : Fault} : args.flags.PickMissing f → Escapes args setup f ""
  /-- A run of digits is too long to be read. -/
  | longRun {f : Fault} : f.LongRun (Blank.remove args.spec.toList) → Escapes args setup f ""
  /-- Dice have more sides than the engine can draw. -/
  | manySides {t : DiceTerm} : (Term.dice t).Occurs args.spec →
      Engine.highest < (t.sides : Int) → Escapes args setup (.badRange .highTooLarge) ""
  /-- Dice can come to a number that is too long to be written. -/
  | longDice {t : DiceTerm} {o : Options} {log : List LogEntry} :
      args.flags.options [] = .ok o log → (Term.dice t).Occurs args.spec →
      Numeral.writable (o.reach t) = false → Escapes args setup .numeralTooLongToWrite ""
  /-- All terms together can come to a number that is too long to be written: the log
  complains of it. -/
  | longTotal {terms : List Term} {o : Options} {log : List LogEntry} :
      args.flags.options [] = .ok o log → readTerms args.spec = .ok terms →
      Numeral.writable ((terms.map (Term.reach o)).sum : Nat) = false →
      Escapes args setup .numeralTooLongToWrite (setup.complaint .numeralTooLongToWrite)

variable {setup : LogSetup} {args : Arguments} {seed : Given Int} {spec stderr : String}
  {o : Options} {out : Outcome} {f : Fault} {log : List LogEntry} {s : Screen}

theorem Arguments.Escapes.isDice_eq_false (h : args.Escapes setup f stderr) :
    f.kind.isDice = false := by
  cases h with
  | noSeed _ hf =>
    cases hf
    rfl
  | noPick hf =>
    rw [hf.1]
    rfl
  | longRun hf =>
    obtain ⟨run, -, -, -, rfl⟩ := hf
    rfl
  | manySides | longDice | longTotal => rfl

/-- The run is over: its status says what has been printed, or a fault has escaped before
anything but a seed was. -/
def Ended (args : Arguments) (setup : LogSetup) (r : EStateM.Result Fault Screen Nat) : Prop :=
  (∃ status s, r = .ok status s ∧ s.Reported status) ∨
    ∃ f s, r = .error f s ∧ SeedLine s.stdout ∧ args.Escapes setup f s.stderr

/-! ### After the evaluation -/

theorem report_ended {options : Option Options} (hout : SeedLine s.stdout) (herr : s.stderr = "")
    (htext : ∃ text, Report.text f.notice (.text spec) options = .ok text)
    (hf : f.kind.isDice = true ∨ args.Escapes setup f "") :
    Ended args setup (report setup spec options f s) := by
  rcases hf with hdice | hescapes
  · obtain ⟨text, htext⟩ := htext
    rw [report_of_isDice hdice htext, herr, String.empty_append]
    exact .inl ⟨1, _, rfl, .one ⟨hout, f.message, rfl⟩⟩
  · have hthrow : report setup spec options f s = .error f s := by
      rw [report, if_neg (Bool.eq_false_iff.1 hescapes.isDice_eq_false)]
      rfl
    rw [hthrow]
    exact .inr ⟨f, s, rfl, hout, by rwa [herr]⟩

theorem printOutcome_ended (hout : SeedLine s.stdout) (herr : s.stderr = "")
    (hw : Numeral.writable out.total = false →
      args.Escapes setup .numeralTooLongToWrite (setup.complaint .numeralTooLongToWrite)) :
    Ended args setup (printOutcome setup spec seed out s) := by
  cases htotal : Numeral.writable out.total with
  | true =>
    rw [printOutcome_of_writable htotal]
    exact .inl ⟨0, _, rfl,
      .zero (.inr ⟨s.stdout, spec, out.total, out.parts, hout, rfl, herr⟩)⟩
  | false =>
    rw [printOutcome_of_not_writable htotal, herr, String.empty_append]
    exact .inr ⟨_, _, rfl, hout, hw htotal⟩

/-! ### From the flags to the end -/

/-- A fault of an evaluation with a live engine belongs to the library or escapes. -/
theorem isDice_or_escapes (ho : args.flags.options [] = .ok o log)
    (hw : o.recordNumbers.all Numeral.writable = true)
    (hf : f.kind.isDice = true ∨ f.LongRun (Blank.remove args.spec.toList) ∨
      f.OfDice o args.spec) : f.kind.isDice = true ∨ args.Escapes setup f "" := by
  rcases hf with hdice | hlong | ⟨t, ht, ⟨rfl, hsides⟩ | ⟨rfl, htags | hreach⟩⟩
  · exact .inl hdice
  · exact .inr (.longRun hlong)
  · exact .inr (.manySides ht hsides)
  · exact absurd (tagNumbers_writable hw) (Bool.eq_false_iff.1 htags)
  · exact .inr (.longDice ho ht hreach)

theorem rollSeeded_ended_of_options (n : Int) (ho : args.flags.options [] = .ok o log)
    (hw : o.recordNumbers.all Numeral.writable = true)
    (hu : ∀ e, o.explode = some e → e.unbounded = false) (hout : SeedLine s.stdout)
    (herr : s.stderr = "") : Ended args setup (rollSeeded { log := setup } args (.value n) s) := by
  have hevaluate := @evaluate_of_live o args.spec { source := Seed.source n } hu
    (Seed.source_live n)
  rcases hevaluate with ⟨out, T', terms, he, hread, hle⟩ | ⟨f, T', he, hf⟩
  · rw [rollSeeded_of_rolled ho (rollWith_of_ok (sourceOf_value { log := setup } n) he)]
    have hescapes : Numeral.writable out.total = false → args.Escapes setup
        .numeralTooLongToWrite (setup.complaint .numeralTooLongToWrite) := by
      intro htotal
      refine .longTotal ho hread (Bool.eq_false_iff.2 fun hsum => ?_)
      exact Bool.false_ne_true (htotal.symm.trans (writable_of_natAbs_le hle hsum))
    exact printOutcome_ended hout herr hescapes
  · rw [rollSeeded_of_failed ho (rollWith_of_error (sourceOf_value { log := setup } n) he)]
    have htext := exists_reportText f args.spec fun _ h => Option.some.inj h ▸ hw
    exact report_ended hout herr htext (isDice_or_escapes ho hw hf)

theorem rollSeeded_ended (hw : args.flags.Writable)
    (hu : ∀ e, Flags.explodeOf args.flags.explode = some e → e.unbounded = false)
    (hseed : seed = .blank → args.flags.seed = some .blank) (hout : SeedLine s.stdout)
    (herr : s.stderr = "") : Ended args setup (rollSeeded { log := setup } args seed s) := by
  rcases Flags.options_ends hw [] with ⟨o, log, ho, hnumbers, hexplode⟩ | ⟨f, log, ho, hf⟩
  · rw [← hexplode] at hu
    cases seed with
    | value n => exact rollSeeded_ended_of_options n ho hnumbers hu hout herr
    | blank =>
      obtain ⟨f, hf⟩ : ∃ f, Host.sourceOf { log := setup } .blank = .error f := ⟨_, rfl⟩
      have hroll : rollWith { log := setup } args.spec .blank o { s with log := s.log ++ log } =
          .error f { s with log := s.log ++ log } := by
        rw [rollWith, hf]
        rfl
      rw [rollSeeded_of_failed ho hroll]
      have htext := exists_reportText f args.spec fun _ h => Option.some.inj h ▸ hnumbers
      exact report_ended hout herr htext (.inr (.noSeed (hseed rfl) hf))
  · rw [rollSeeded_of_refused ho]
    have htext := exists_reportText f args.spec fun o h => absurd h (Option.some_ne_none o).symm
    exact report_ended hout herr htext (hf.imp_right .noPick)

/-! ### The whole command -/

/-- **Runs are reported.** A run whose log can be set up and that asks for no unbounded
explosion has a status that says what has been printed, or a fault escapes it that is
not one of the library. -/
theorem run_reports {argv : List String} (hlog : setup.problem = none)
    (hu : ∀ args e, parse argv = .ok args → Flags.explodeOf args.flags.explode = some e →
      e.unbounded = false) (clock : Clock) :
    (∃ status s, runOn { log := setup } argv clock {} = .ok status s ∧ s.Reported status) ∨
      ∃ args f s, parse argv = .ok args ∧ runOn { log := setup } argv clock {} = .error f s ∧
        SeedLine s.stdout ∧ f.kind.isDice = false ∧ args.Escapes setup f s.stderr := by
  cases hparse : parse argv with
  | error halt =>
    cases halt with
    | help =>
      have hrun : runOn { log := setup } argv clock {} =
          .ok 0 ⟨"" ++ Help.text ++ "\n", "", []⟩ := by
        rw [runOn, hparse]
        rfl
      rw [String.empty_append] at hrun
      exact .inl ⟨_, _, hrun, .zero (.inl ⟨rfl, rfl⟩)⟩
    | refused r =>
      have hrun : runOn { log := setup } argv clock {} = .ok 1
          ⟨"", "" ++ ("Error: " ++ r.message ++ ". Use --help for usage tips.") ++ "\n", []⟩ := by
        rw [runOn, hparse]
        rfl
      rw [String.empty_append, @String.append_assoc "Error: "] at hrun
      exact .inl ⟨_, _, hrun, .one ⟨.inl rfl, _, rfl⟩⟩
  | ok args =>
    have hended : Ended args setup (runOn { log := setup } argv clock {}) := by
      have hw := parse_writable hparse
      cases hseed : args.flags.seed with
      | none =>
        rw [runOn_of_no_seed hlog clock hparse hseed]
        refine rollSeeded_ended hw (fun e => hu args e hparse) (fun hblank => ?_)
          (.inr ⟨_, rfl⟩) rfl
        cases hblank
      | some seed =>
        rw [runOn_of_parse hlog clock hparse hseed]
        refine rollSeeded_ended hw (fun e => hu args e hparse) (fun hblank => ?_) (.inl rfl) rfl
        rw [hseed, hblank]
    rcases hended with hreported | ⟨f, s, hrun, hout, hescapes⟩
    · exact .inl hreported
    · exact .inr ⟨args, f, s, rfl, hrun, hout, hescapes.isDice_eq_false, hescapes⟩

/-- Two dice are rolled with a seed and printed, and the status is 0. -/
theorem run_reports_two_dice :
    let setup : LogSetup := {}
    let argv := ["--seed=3835213770", "2d6"]
    setup.problem = none ∧
      (∀ args e, parse argv = .ok args → Flags.explodeOf args.flags.explode = some e →
        e.unbounded = false) ∧
      ∃ s, runOn { log := setup } argv ⟨0⟩ {} = .ok 0 s ∧ s.Reported 0 ∧
        s.stdout = "Roll 2d6 = 8\nParts: +2d6 [5,3]=8\n" ∧ s.stderr = "" := by
  intro setup argv
  have hlog : setup.problem = none := rfl
  have hu : ∀ args e, parse argv = .ok args → Flags.explodeOf args.flags.explode = some e →
      e.unbounded = false := by
    intro args e hargs he
    cases parse_two_dice.symm.trans hargs
    cases he
  obtain ⟨log, hrun⟩ := exists_runOn_two_dice ⟨0⟩
  rcases run_reports hlog hu ⟨0⟩ with ⟨status, s, hok, hreported⟩ | ⟨_, f, s, _, herror, _⟩
  · cases hok.symm.trans hrun
    exact ⟨hlog, hu, _, hrun, hreported, rfl, rfl⟩
  · cases herror.symm.trans hrun

/-- A die with one side more than the engine can draw makes a run without any
explosion end without a status. -/
theorem not_exists_status_of_many_sides :
    let argv := ["d9223372036854775808", "--seed=1"]
    (∀ args e, parse argv = .ok args → Flags.explodeOf args.flags.explode = some e →
      e.unbounded = false) ∧
    ¬ ∃ status s, run argv (.ofParts 1700000000 654321) {} = .ok status s := by
  intro argv
  constructor
  · intro args e hargs he
    have hparse : parse argv = .ok ⟨"d9223372036854775808", { seed := some (.value 1) }⟩ := by
      decide +kernel
    rw [hparse] at hargs
    cases hargs
    cases he
  · have hend : (run argv (.ofParts 1700000000 654321)).run' {} = none := by decide +kernel
    rintro ⟨status, s, hok⟩
    delta EStateM.run' EStateM.run at hend
    rw [hok] at hend
    cases hend

end CommandLine
end DiceRoller
