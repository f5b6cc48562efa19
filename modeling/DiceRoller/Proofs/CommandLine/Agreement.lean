/-
# The command does what the evaluation does

For an expression, options and a seed that are rendered as arguments in any
order, the command evaluates the expression with these options on the source
that the host has for this seed: it prints the total and the parts and ends with
status 0, or it prints the message of the fault and ends with status 1
(`run_of_renders`). The host may have any generator; its log can be set up.

What the command does with a seed is put together from what it does with the
flags (`rollSeeded_of_options`, `rollSeeded_of_refused`), from how it goes on with
the evaluation (`rollSeeded_of_rolled`, `rollSeeded_of_failed`) and from what it
does in the end (`printOutcome_of_writable`, `printOutcome_of_not_writable`,
`report_of_isDice`).

Key theorems: `rollSeeded_of_options`, `printOutcome_of_writable`,
`printOutcome_of_not_writable`, `report_of_isDice`, `run_of_renders`.
-/
import DiceRoller.Proofs.CommandLine.Session
import DiceRoller.Proofs.CommandLine.Setting

namespace DiceRoller
namespace CommandLine

open Session

variable {host : Host} {setup : LogSetup} {args : Arguments} {seed : Given Int} {spec : String}
  {o : Options} {out : Outcome} {f : Fault} {log : List LogEntry} {source : Source}
  {trace : Trace} {s s' : Screen}

/-! ### The flags and the evaluation -/

theorem rollSeeded_of_options (ho : args.flags.options [] = .ok o log) :
    rollSeeded host args seed s = (do
      match ← attempt (rollWith host args.spec seed o) with
      | .error f => report host.log args.spec (some o) f
      | .ok out => printOutcome host.log args.spec seed out : Session Nat)
        { s with log := s.log ++ log } := by
  have hlogged : ofLogged args.flags.options s = .ok o { s with log := s.log ++ log } := by
    rw [ofLogged, ho]
  rw [rollSeeded]
  exact bind_of_ok (attempt_of_ok hlogged)

theorem rollSeeded_of_refused (ho : args.flags.options [] = .error f log) :
    rollSeeded host args seed s =
      report host.log args.spec none f { s with log := s.log ++ log } := by
  have hlogged : ofLogged args.flags.options s = .error f { s with log := s.log ++ log } := by
    rw [ofLogged, ho]
  rw [rollSeeded]
  exact bind_of_ok (attempt_of_error hlogged)

theorem rollSeeded_of_failed (ho : args.flags.options [] = .ok o log)
    (hroll : rollWith host args.spec seed o { s with log := s.log ++ log } = .error f s') :
    rollSeeded host args seed s = report host.log args.spec (some o) f s' := by
  rw [rollSeeded_of_options ho, bind_of_ok (attempt_of_error hroll)]

theorem rollSeeded_of_rolled (ho : args.flags.options [] = .ok o log)
    (hroll : rollWith host args.spec seed o { s with log := s.log ++ log } = .ok out s') :
    rollSeeded host args seed s = printOutcome host.log args.spec seed out s' := by
  rw [rollSeeded_of_options ho, bind_of_ok (attempt_of_ok hroll)]

theorem rollWith_of_source (hsource : host.sourceOf seed = .ok source) :
    rollWith host spec seed o s = ofEvaluation (evaluate o spec) source s := by
  rw [rollWith, hsource]
  rfl

theorem rollWith_of_ok (hsource : host.sourceOf seed = .ok source)
    (he : evaluate o spec { source } = .ok out trace) :
    rollWith host spec seed o s = .ok out { s with log := s.log ++ trace.log } := by
  rw [rollWith_of_source hsource, ofEvaluation, he]

theorem rollWith_of_error (hsource : host.sourceOf seed = .ok source)
    (he : evaluate o spec { source } = .error f trace) :
    rollWith host spec seed o s = .error f { s with log := s.log ++ trace.log } := by
  rw [rollWith_of_source hsource, ofEvaluation, he]

theorem sourceOf_value (host : Host) (n : Int) :
    host.sourceOf (.value n) = .ok (host.source n) :=
  Seed.sourceOfBy_number host.generator n

/-! ### The end of a run -/

theorem printOutcome_of_writable (hw : Numeral.writable out.total = true) :
    printOutcome setup spec seed out s = .ok 0 ⟨s.stdout ++
      ("Roll " ++ spec ++ " = " ++ toString out.total ++ "\n" ++
        ("Parts: " ++ " ".intercalate out.parts ++ "\n")), s.stderr,
      s.log ++ [rolledEntry spec seed (toString out.total)]⟩ := by
  have hpublish : Numeral.publish [out.total] (toString out.total) = .ok (toString out.total) :=
    Numeral.publish_eq_ok_iff.2 ⟨all_writable_singleton hw, rfl⟩
  have hseparator : Settings.separator = " " := by decide +kernel
  rw [printOutcome, hpublish, hseparator]
  show EStateM.Result.ok 0 (⟨s.stdout ++ _ ++ "\n" ++ _ ++ "\n", _, _⟩ : Screen) = _
  simp only [String.append_assoc]

/-- Of a total that may not be written only the log's complaint is left. -/
theorem printOutcome_of_not_writable (hw : Numeral.writable out.total = false) :
    printOutcome setup spec seed out s = .error .numeralTooLongToWrite
      { s with stderr := s.stderr ++ setup.complaint .numeralTooLongToWrite } := by
  have hpublish : Numeral.publish [out.total] (toString out.total) =
      .error .numeralTooLongToWrite := by
    rw [Numeral.publish, List.all_cons, hw]
    rfl
  rw [printOutcome, hpublish]
  rfl

theorem exists_reportText (f : Fault) (spec : String) {options : Option Options}
    (hw : ∀ o, options = some o → o.recordNumbers.all Numeral.writable = true) :
    ∃ text, Report.text f.notice (.text spec) options = .ok text := by
  have hspec : (Datum.text spec).write = .ok spec := Numeral.publish_eq_ok_iff.2 ⟨rfl, rfl⟩
  cases options with
  | none =>
    rw [Report.text, Report.body, hspec]
    exact ⟨_, rfl⟩
  | some o =>
    have hrecord : Numeral.publish o.recordNumbers o.record = .ok o.record :=
      Numeral.publish_eq_ok_iff.2 ⟨hw o rfl, rfl⟩
    rw [Report.text, Report.body, hspec]
    simp only [exceptBind_of_ok rfl, hrecord]
    exact ⟨_, rfl⟩

theorem report_of_isDice {options : Option Options} {text : String} (hf : f.kind.isDice = true)
    (htext : Report.text f.notice (.text spec) options = .ok text) :
    report setup spec options f s = .ok 1 ⟨s.stdout, s.stderr ++ ("Error: " ++ f.message ++ "\n"),
      s.log ++ [⟨Level.ofNotice (f.level?.getD Notice.usualLevel), .command, text⟩]⟩ := by
  rw [report, if_pos hf, htext]
  show EStateM.Result.ok 1 (⟨_, s.stderr ++ ("Error: " ++ f.message) ++ "\n", _⟩ : Screen) = _
  rw [String.append_assoc]

theorem rollSeeded_of_ok (ho : args.flags.options [] = .ok o log)
    (hsource : host.sourceOf seed = .ok source)
    (he : evaluate o args.spec { source } = .ok out trace)
    (hw : Numeral.writable out.total = true) :
    rollSeeded host args seed s = .ok 0 ⟨s.stdout ++
      ("Roll " ++ args.spec ++ " = " ++ toString out.total ++ "\n" ++
        ("Parts: " ++ " ".intercalate out.parts ++ "\n")), s.stderr,
      s.log ++ log ++ trace.log ++ [rolledEntry args.spec seed (toString out.total)]⟩ := by
  rw [rollSeeded_of_rolled ho (rollWith_of_ok hsource he)]
  exact printOutcome_of_writable hw

theorem rollSeeded_of_error (ho : args.flags.options [] = .ok o log)
    (hsource : host.sourceOf seed = .ok source)
    (he : evaluate o args.spec { source } = .error f trace) (hf : f.kind.isDice = true)
    (hw : o.recordNumbers.all Numeral.writable = true) :
    ∃ log, rollSeeded host args seed s =
      .ok 1 ⟨s.stdout, s.stderr ++ ("Error: " ++ f.message ++ "\n"), log⟩ := by
  obtain ⟨text, htext⟩ := exists_reportText f args.spec (fun _ h => Option.some.inj h ▸ hw)
  rw [rollSeeded_of_failed ho (rollWith_of_error hsource he)]
  exact ⟨_, report_of_isDice hf htext⟩

/-! ### The whole command -/

/-- With a seed among its arguments the command goes straight on with it. -/
theorem runOn_of_parse {argv : List String} (hlog : host.log.problem = none) (clock : Clock)
    (hparse : parse argv = .ok args) (hseed : args.flags.seed = some seed) :
    runOn host argv clock s = rollSeeded host args seed s := by
  rw [runOn, hparse]
  show rollArguments host args clock s = _
  rw [rollArguments_eq hlog, hseed]
  rfl

/-- The command on rendered arguments does what the evaluation does, on any host
whose log can be set up. -/
theorem run_of_renders (hlog : host.log.problem = none) {e : String} {n : Int} {bare : Bool}
    {argv : List String} (h : Options.Renders e o n bare argv)
    (hw : (n :: o.recordNumbers).all Numeral.writable = true) (clock : Clock) :
    (∃ args, parse argv = .ok args ∧ args.spec = e ∧ args.flags.seed = some (.value n) ∧
        ∃ log, args.flags.options [] = .ok o log) ∧
      (∀ out trace, evaluate o e { source := host.source n } = .ok out trace →
        Numeral.writable out.total = true → ∃ log, runOn host argv clock {} = .ok 0
          ⟨"Roll " ++ e ++ " = " ++ toString out.total ++ "\n" ++
            ("Parts: " ++ " ".intercalate out.parts ++ "\n"), "", log⟩) ∧
      (∀ f trace, evaluate o e { source := host.source n } = .error f trace →
        f.kind.isDice = true → ∃ log, runOn host argv clock {} = .ok 1
          ⟨"", "Error: " ++ f.message ++ "\n", log⟩) := by
  have hparse := Options.parse_of_renders h hw
  obtain ⟨log, hoptions⟩ := o.options_flags n []
  generalize hargs : (⟨e, o.flags n⟩ : Arguments) = args at hparse
  obtain ⟨rfl, hflags⟩ : args.spec = e ∧ args.flags = o.flags n := by
    rw [← hargs]
    exact ⟨rfl, rfl⟩
  have hseed : args.flags.seed = some (.value n) := by
    rw [hflags]
    rfl
  rw [← hflags] at hoptions
  rw [List.all_cons, Bool.and_eq_true] at hw
  rw [runOn_of_parse hlog clock hparse hseed]
  refine ⟨⟨args, hparse, rfl, hseed, log, hoptions⟩, ?_, ?_⟩
  · intro out trace he hout
    have hend := rollSeeded_of_ok (s := {}) hoptions (sourceOf_value host n) he hout
    rw [String.empty_append] at hend
    exact ⟨_, hend⟩
  · intro f trace he hf
    obtain ⟨log', hend⟩ := rollSeeded_of_error (s := {}) hoptions (sourceOf_value host n) he hf hw.2
    rw [String.empty_append] at hend
    exact ⟨log', hend⟩

/-- A constant with a drop and a seed around it. -/
theorem run_of_renders_three :
    let host : Host := {}
    let o : Options := ⟨some ⟨1⟩, none, none, some ⟨.max, 2⟩, none, none⟩
    host.log.problem = none ∧
      (∃ log, runOn host ["--explode=max,2", "--dl=1", "3", "--seed=-7"] ⟨0⟩ {} =
        .ok 0 ⟨"Roll 3 = 3\nParts: +3\n", "", log⟩) ∧
      ∃ args, parse ["--explode=max,2", "--dl=1", "3", "--seed=-7"] = .ok args ∧
        ∃ log, args.flags.options [] = .ok o log := by
  intro host o
  have hrenders : Options.Renders "3" o (-7) false
      ["--explode=max,2", "--dl=1", "3", "--seed=-7"] := by
    have hp : ([.explode ⟨.max, 2⟩ false, .dropLowest 1] ++ [.seed (-7)] : List Setting).Perm
        (o.settings (-7) false) := by decide
    exact .among hp (by decide)
  have hw : ((-7 : Int) :: o.recordNumbers).all Numeral.writable = true := by
    show ([-7, 1, 2] : List Int).all Numeral.writable = true
    decide +kernel
  have hlog : host.log.problem = none := rfl
  obtain ⟨⟨args, hparse, -, -, hoptions⟩, hok, -⟩ := run_of_renders hlog hrenders hw ⟨0⟩
  obtain ⟨trace, heval⟩ : ∃ trace, evaluate o "3" { source := host.source (-7) } =
      .ok ⟨3, ["+3"]⟩ trace := by
    have hrun : EStateM.run' (evaluate o "3") { source := host.source (-7) } =
        some ⟨3, ["+3"]⟩ := by decide +kernel
    exact exists_of_run' hrun
  have hthree : Numeral.writable (3 : Int) = true := by decide +kernel
  obtain ⟨log, hrun⟩ := hok _ _ heval hthree
  exact ⟨hlog, ⟨log, hrun⟩, args, hparse, hoptions⟩

end CommandLine
end DiceRoller
