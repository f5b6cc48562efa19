/-
# What a session has written stays

A session only adds to the screen, and what it adds does not depend on what is
there. So a run on any screen is the run on an empty one, with everything
written put after what was there before (`Session.Appends`). The property holds
of every primitive of sessions and goes over to sessions put one after the
other, hence to the whole command, on any host (`runOn_appends`).

Once the log is set up and the seed is chosen nothing depends on the clock any
more (`rollArguments_eq`). If the log cannot be set up, the command ends before
it has printed anything (`runOn_of_problem`).

Key definitions: `Screen.after`, `Screen.resultAfter`, `Session.Appends`,
`rollSeeded`.
Key theorems: `Session.Appends.bind`, `rollArguments_eq`, `runOn_of_problem`,
`runOn_appends`.
-/
import DiceRoller.CommandLine.Run
import DiceRoller.Proofs.Steps

namespace DiceRoller
namespace CommandLine

/-! ### Screens after screens -/

namespace Screen

/-- The screen of a run that began where another one had written already. -/
def after (s front : Screen) : Screen :=
  ⟨front.stdout ++ s.stdout, front.stderr ++ s.stderr, front.log ++ s.log⟩

@[simp] theorem after_empty (s : Screen) : s.after {} = s := by simp [after]

@[simp] theorem empty_after (front : Screen) : ({} : Screen).after front = front := by
  simp [after]

theorem after_after (s t u : Screen) : (s.after t).after u = s.after (t.after u) := by
  simp [after, String.append_assoc]

variable {α : Type}

/-- The result of a run that began where another one had written already. -/
def resultAfter (front : Screen) :
    EStateM.Result Fault Screen α → EStateM.Result Fault Screen α
  | .ok a s => .ok a (s.after front)
  | .error f s => .error f (s.after front)

theorem resultAfter_resultAfter (s t : Screen) (r : EStateM.Result Fault Screen α) :
    resultAfter s (resultAfter t r) = resultAfter (t.after s) r := by
  cases r <;> simp [resultAfter, after_after]

end Screen

/-! ### Sessions that only append -/

namespace Session

variable {α β : Type} {x : Session α} {f : α → Session β}

/-- The session adds to any screen what it adds to an empty one. -/
def Appends (x : Session α) : Prop := ∀ s, x s = Screen.resultAfter s (x {})

namespace Appends

theorem pure (a : α) : Appends (Pure.pure a : Session α) := fun s => by
  show EStateM.Result.ok a s = .ok a (({} : Screen).after s)
  rw [Screen.empty_after]

theorem throw (f : Fault) : Appends (MonadExcept.throw f : Session α) := fun s => by
  show EStateM.Result.error f s = .error f (({} : Screen).after s)
  rw [Screen.empty_after]

/-- Two sessions one after the other append if each does. -/
theorem bind (hx : Appends x) (hf : ∀ a, Appends (f a)) : Appends (x >>= f) := by
  intro s
  have hs := hx s
  cases h : x {} with
  | ok a u =>
    rw [h] at hs
    rw [bind_of_ok hs, bind_of_ok h, hf a (u.after s), hf a u, Screen.resultAfter_resultAfter]
  | error e u =>
    rw [h] at hs
    rw [bind_of_error hs, bind_of_error h]
    rfl

theorem print (line : String) : Appends (Session.print line) := fun s => by
  simp [Session.print, Screen.resultAfter, Screen.after, String.append_assoc]

theorem printError (line : String) : Appends (Session.printError line) := fun s => by
  simp [Session.printError, Screen.resultAfter, Screen.after, String.append_assoc]

theorem enter (setup : LogSetup) (entry : Except Fault LogEntry) :
    Appends (Session.enter setup entry) := fun s => by
  cases entry <;> simp [Session.enter, Screen.resultAfter, Screen.after]

theorem ofExcept (y : Except Fault α) : Appends (Session.ofExcept y) := by
  cases y with
  | ok a => exact pure a
  | error f => exact throw f

theorem ofLogged (y : Logged α) : Appends (Session.ofLogged y) := fun s => by
  unfold Session.ofLogged
  split <;> simp [Screen.resultAfter, Screen.after]

theorem ofEvaluation (y : Evaluation α) (source : Source) :
    Appends (Session.ofEvaluation y source) := fun s => by
  unfold Session.ofEvaluation
  split <;> simp [Screen.resultAfter, Screen.after]

theorem attempt (hx : Appends x) : Appends (Session.attempt x) := fun s => by
  unfold Session.attempt
  rw [hx s]
  cases x {} <;> rfl

end Appends

/-! ### Sessions whose faults are handed on -/

theorem attempt_of_ok {a : α} {s s' : Screen} (h : x s = .ok a s') :
    attempt x s = .ok (.ok a) s' := by rw [attempt, h]

theorem attempt_of_error {e : Fault} {s s' : Screen} (h : x s = .error e s') :
    attempt x s = .ok (.error e) s' := by rw [attempt, h]

end Session

/-! ### The command -/

open Session

variable (host : Host)

/-- What the command does with a seed. -/
def rollSeeded (args : Arguments) (seed : Given Int) : Session Nat := do
  match ← attempt (ofLogged args.flags.options) with
  | .error f => report host.log args.spec none f
  | .ok o =>
    match ← attempt (rollWith host args.spec seed o) with
    | .error f => report host.log args.spec (some o) f
    | .ok out => printOutcome host.log args.spec seed out

variable {host} in
theorem rollArguments_eq (hlog : host.log.problem = none) (args : Arguments) (clock : Clock) :
    rollArguments host args clock = chooseSeed args.flags.seed clock >>= rollSeeded host args := by
  rw [rollArguments, LogSetup.check, hlog]
  rfl

variable {host} in
theorem rollArguments_of_problem {f : Fault} (hlog : host.log.problem = some f)
    (args : Arguments) (clock : Clock) (s : Screen) :
    rollArguments host args clock s = .error f s := by
  rw [rollArguments, LogSetup.check, hlog]
  rfl

theorem chooseSeed_appends (flag : Option (Given Int)) (clock : Clock) :
    Appends (chooseSeed flag clock) := by
  cases flag with
  | some g => exact .pure g
  | none => exact (Appends.print _).bind fun _ => .pure _

theorem report_appends (setup : LogSetup) (spec : String) (options : Option Options) (f : Fault) :
    Appends (report setup spec options f) := by
  unfold report
  split
  · exact (Appends.ofExcept _).bind fun _ => (Appends.enter _ _).bind fun _ =>
      (Appends.printError _).bind fun _ => .pure _
  · exact .throw f

theorem printOutcome_appends (setup : LogSetup) (spec : String) (seed : Given Int)
    (out : Outcome) : Appends (printOutcome setup spec seed out) :=
  (Appends.enter _ _).bind fun _ => (Appends.ofExcept _).bind fun _ =>
    (Appends.print _).bind fun _ => (Appends.print _).bind fun _ => .pure _

theorem rollWith_appends (spec : String) (seed : Given Int) (o : Options) :
    Appends (rollWith host spec seed o) :=
  (Appends.ofExcept _).bind fun _ => .ofEvaluation _ _

theorem rollSeeded_appends (args : Arguments) (seed : Given Int) :
    Appends (rollSeeded host args seed) := by
  refine (Appends.ofLogged _).attempt.bind fun r => ?_
  cases r with
  | error f => exact report_appends _ _ _ f
  | ok o =>
    refine (rollWith_appends _ _ _ _).attempt.bind fun r => ?_
    cases r with
    | error f => exact report_appends _ _ _ f
    | ok out => exact printOutcome_appends _ _ _ out

theorem rollArguments_appends (args : Arguments) (clock : Clock) :
    Appends (rollArguments host args clock) := by
  cases hlog : host.log.problem with
  | none =>
    rw [rollArguments_eq hlog]
    exact (chooseSeed_appends _ _).bind (rollSeeded_appends host args)
  | some f =>
    intro s
    rw [rollArguments_of_problem hlog, rollArguments_of_problem hlog]
    exact Appends.throw f s

variable {host} in
/-- Without a log nothing is rolled, and nothing is printed. -/
theorem runOn_of_problem {f : Fault} {argv : List String} {args : Arguments}
    (hlog : host.log.problem = some f) (hparse : parse argv = .ok args) (clock : Clock)
    (s : Screen) : runOn host argv clock s = .error f s := by
  rw [runOn, hparse]
  exact rollArguments_of_problem hlog args clock s

/-- The command only adds to the screen. -/
theorem runOn_appends (argv : List String) (clock : Clock) : Appends (runOn host argv clock) := by
  unfold runOn
  split
  · exact (Appends.print _).bind fun _ => .pure _
  · exact (Appends.printError _).bind fun _ => .pure _
  · exact rollArguments_appends host _ _

end CommandLine
end DiceRoller
