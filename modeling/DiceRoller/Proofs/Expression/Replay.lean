/-
# Evaluations can be played back

An evaluation depends on its source only through the values that it draws. So
with a script of these values it gives the same total and the same parts, from
whatever source they came and whatever comes after them in the script; and a
script that ends before the last of them is passed to its end and found to be
exhausted (`evaluate_replay`).

The values are spoken of by rolling the dice of the parts once more with the
same source, each as often as the part drew (`Part.rolledSides`).

Key definitions: `Trace.playing`, `Part.entries`, `Part.rolledSides`.
Key theorems: `Deals.consumes`, `Deals.rollAll`, `evaluate_replay`.
-/
import DiceRoller.Proofs.Expression.Accounting
import DiceRoller.Source.Engine

namespace DiceRoller

instance : HasSource Trace := ⟨Trace.source⟩

/-- The trace with the log, on which the script is played. -/
abbrev Trace.playing (log : List LogEntry) (p : Script) : Trace := ⟨.scripted p, log⟩

namespace Part

/-- What is entered into the log for the part. -/
def entries : Part → List LogEntry
  | constant _ => []
  | dice t h => [⟨.debug, .rolling, h.logText t.text⟩]

/-- The sides of the dice that were rolled for the part, one die for each
value drawn. -/
def rolledSides (o : Options) : Part → List Int
  | constant _ => []
  | dice t h => List.replicate ((dice t h).draws o) t.sides

end Part

section

variable {o : Options} {s s' : Source} {terms : List Term} {parts : List Part}
  {drawn : List (List Int)} {T T' : Trace} {expression : String}

theorem log_of_rollTerms (hok : rollTerms o terms T = .ok parts T') :
    T'.log = T.log ++ parts.flatMap Part.entries := by
  induction terms generalizing T parts with
  | nil =>
    cases hok
    exact (List.append_nil _).symm
  | cons t ts ih =>
    obtain ⟨part, T₁, parts, hpart, hparts, rfl⟩ := cons_eq_ok_iff.1 hok
    rw [ih hparts, List.flatMap_cons, ← List.append_assoc]
    cases t with
    | constant c =>
      obtain ⟨rfl, rfl⟩ := rollPart_constant.1 hpart
      rw [Part.entries, List.append_nil]
    | dice t =>
      obtain ⟨h, s, -, rfl, rfl⟩ := rollPart_dice.1 hpart
      rw [Part.entries]

/-- A die that is rolled for a part of the expression consumes what it does by
itself. -/
theorem roll_consumes {t : DiceTerm} {vs : List Int} {h : Hand}
    (hc : Consumes (o.rollTerm t) .scripted vs h .scripted) (log : List LogEntry) :
    Consumes (Evaluation.roll o t) (.playing log) vs h
      (.playing (log ++ (Part.dice t h).entries)) where
  full passed rest := by
    rw [Evaluation.roll, hc.full]
    rfl
  short hsplit passed := by
    obtain ⟨s, hs, hsource⟩ := hc.short hsplit passed
    refine ⟨⟨s, log⟩, ?_, hsource⟩
    rw [Evaluation.roll, hs]

theorem Deals.consumes (hd : Deals o s parts drawn s') (log : List LogEntry) :
    Consumes (rollTerms o (parts.map Part.term)) (.playing log) drawn.flatten parts
      (.playing (log ++ parts.flatMap Part.entries)) := by
  induction hd generalizing log with
  | nil =>
    rw [List.flatMap_nil, List.append_nil]
    exact .quiet fun _ => rfl
  | constant _ ih => exact .cons (.quiet fun _ => rfl) (ih log)
  | dice hs hg _ ih =>
    have hroll := roll_consumes (Options.rollTerm_consumes hs hg.mem_range) log
    rw [List.flatMap_cons, ← List.append_assoc]
    exact .cons (hroll.then_quiet fun _ => rfl) (ih _)

theorem Deals.rollAll (hd : Deals o s parts drawn s') :
    Source.rollAll (parts.flatMap (Part.rolledSides o)) s = .ok drawn.flatten s' := by
  induction hd with
  | nil => rfl
  | constant _ ih => exact ih
  | dice hs hg _ ih =>
    have hlength := (Options.balanced_of_steps hs).length_drawn
    rw [List.flatMap_cons, Part.rolledSides, Part.draws, ← hlength]
    exact Source.rollAll_append hg.rollAll ih

/-- An evaluation that succeeds draws values that it can be played back from.
They are what the dice of its parts show with the source. A script that starts
with them gives the same outcome and is passed as far as they go; one that ends
before the last of them is exhausted. -/
theorem evaluate_replay {log : List LogEntry} {out : Outcome}
    (hok : evaluate o expression ⟨s, log⟩ = .ok out T') :
    ∃ (parts : List Part) (vs : List Int), evalTerms o expression ⟨s, log⟩ = .ok parts T' ∧
      summarize parts = .ok out ∧
      Source.rollAll (parts.flatMap (Part.rolledSides o)) s = .ok vs T'.source ∧
      (∀ rest, evaluate o expression ⟨.scripted (.ofList (vs ++ rest)), log⟩ =
        .ok out ⟨.scripted ⟨vs.reverse, rest⟩, T'.log⟩) ∧
      ∀ j < vs.length, ∃ T, evaluate o expression ⟨.scripted (.ofList (vs.take j)), log⟩ =
          .error (.scriptExhausted j) T ∧
        T.source = .scripted ⟨(vs.take j).reverse, []⟩ := by
  obtain ⟨parts, T₁, hparts, hout⟩ := bind_eq_ok_iff.1 hok
  obtain ⟨hsum, rfl⟩ := Evaluation.ofExcept_eq_ok_iff.1 hout
  obtain ⟨terms, hread, hroll⟩ := evalTerms_eq_ok_iff.1 hparts
  obtain ⟨drawn, hd⟩ := rollTerms_deals hroll
  have hc : Consumes (evaluate o expression) (.playing log) drawn.flatten out
      (.playing T₁.log) := by
    rw [evaluate, evalTerms_of_readTerms hread, ← term_of_rollTerms hroll, log_of_rollTerms hroll]
    exact (hd.consumes log).then_quiet fun _ => Evaluation.ofExcept_eq_ok_iff.2 ⟨hsum, rfl⟩
  refine ⟨parts, drawn.flatten, hparts, hsum, hd.rollAll, fun rest => ?_, fun j hj => hc.take hj⟩
  rw [Script.ofList, ← List.append_nil drawn.flatten.reverse]
  exact hc.full [] rest

/-- Dice that explode, rolled with the generator of a seed: the first four of
the second die is drawn before the values that the first die adds. -/
theorem evaluate_replay_seeded :
    let o : Options := { explode := some ⟨.max, 0⟩ }
    ∃ out T', evaluate o "2d4" ⟨.seeded (.ofSeed 10), []⟩ = .ok out T' ∧
      (∀ rest, evaluate o "2d4" ⟨.scripted (.ofList ([4, 4, 2, 1] ++ rest)), []⟩ =
        .ok out ⟨.scripted ⟨[1, 2, 4, 4], rest⟩, T'.log⟩) ∧
      ∃ T, evaluate o "2d4" ⟨.scripted (.ofList [4, 4]), []⟩ = .error (.scriptExhausted 2) T := by
  intro o
  let t : DiceTerm := ⟨1, 2, 4, 0, by decide, by decide, by decide⟩
  have hread : readTerms "2d4" = .ok [.dice t] := by decide +kernel
  let h : Hand := { rolls := [4, 2, 4, 1], exploded := 2, tags := [(4, "explode@max x2")] }
  obtain ⟨s', hterm⟩ : ∃ s', o.rollTerm t (.seeded (.ofSeed 10)) = .ok h s' := by
    have hrun : EStateM.run' (o.rollTerm t) (.seeded (.ofSeed 10)) = some h := by
      unfold Options.rollTerm
      rw [Options.modifiersFor_eq]
      decide +kernel
    exact exists_of_run' hrun
  let T : Trace := ⟨.seeded (.ofSeed 10), []⟩
  have hparts := (evalTerms_eq_ok_iff (T := T)).2 ⟨_, hread, cons_eq_ok_iff.2
    ⟨_, _, [], rollPart_dice.2 ⟨h, s', hterm, rfl, rfl⟩, rfl, rfl⟩⟩
  have hw : (t.textNumbers ++ h.textNumbers).all Numeral.writable = true := by
    rw [Hand.textNumbers, Hand.value, Hand.kept_eq]
    decide +kernel
  have hok := evaluate_of_rollTerm (T := T) hread hterm hw
  obtain ⟨parts, vs, hparts', -, hvs, hfull, hshort⟩ := evaluate_replay hok
  obtain rfl : parts = [.dice t h] := by
    rw [hparts] at hparts'
    cases hparts'
    rfl
  obtain rfl : vs = [4, 4, 2, 1] := by
    have hall : EStateM.run' (Source.rollAll [4, 4, 4, 4]) (.seeded (.ofSeed 10)) =
        some [4, 4, 2, 1] := by decide +kernel
    obtain ⟨s₁, hroll⟩ := exists_of_run' hall
    cases hroll.symm.trans hvs
    rfl
  obtain ⟨U, hU, -⟩ := hshort 2 (by decide)
  exact ⟨_, _, hok, hfull, U, hU⟩

end

end DiceRoller
