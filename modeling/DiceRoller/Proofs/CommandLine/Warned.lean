/-
# The warning about explosions that never stop

Whoever asks for an unbounded explosion is warned that it will never stop, and
nobody else is (`Flags.warnings_of_options`). The warning is right: with such an
explosion no script lets a term be rolled, and with every other one some script
does (`unbounded_never_stops`).

There is an exception on both sides. A number with too many digits ends the roll
where it has to be written, with another fault than one of the source: this may
happen before an explosion that never stops
(`not_ofSource_of_long_reroll`), and it may happen on every script.

Key definition: `warnings`.
Key theorems: `Flags.warnings_of_options`, `unbounded_never_stops`.
-/
import DiceRoller.CommandLine.Selection
import DiceRoller.Proofs.Hand.Endless

namespace DiceRoller
namespace CommandLine

/-- The entries about an explosion: one if it never stops. -/
def warnings (explode : Option Explode) : List LogEntry :=
  (explode.filter Explode.unbounded).toList.map unboundedWarning

theorem Logged.ofExcept_bind_eq_ok_iff {α β : Type} {x : Except Fault α} {next : α → Logged β}
    {b : β} {log log' : List LogEntry} : (Logged.ofExcept x >>= next) log = .ok b log' ↔
      ∃ a, x = .ok a ∧ next a log = .ok b log' :=
  check_bind_eq_ok_iff_of (fun _ => rfl) fun _ => rfl

namespace Flags

theorem warn_eq {explode : Option Explode} {next : Unit → Logged Options} (log : List LogEntry) :
    (match explode with
      | some e => if e.unbounded then Logged.enter (unboundedWarning e) >>= next else next ()
      | none => next () : Logged Options) log = next () (log ++ warnings explode) := by
  cases explode with
  | none => simp [warnings]
  | some e =>
    by_cases hu : e.unbounded = true
    · simp only [warnings, Option.filter_some, hu, if_true]
      rfl
    · simp [warnings, Option.filter_some, hu]

/-- Options that are accepted have the explosion that was asked for, and the log
tells if it never stops. -/
theorem warnings_of_options {flags : Flags} {o : Options} {log log' : List LogEntry}
    (h : flags.options log = .ok o log') :
    o.explode = explodeOf flags.explode ∧ log' = log ++ warnings o.explode := by
  unfold options at h
  obtain ⟨low, -, h⟩ := Logged.ofExcept_bind_eq_ok_iff.1 h
  obtain ⟨high, -, h⟩ := Logged.ofExcept_bind_eq_ok_iff.1 h
  obtain ⟨reroll, -, h⟩ := Logged.ofExcept_bind_eq_ok_iff.1 h
  replace h := (warn_eq log).symm.trans h
  obtain ⟨adv, -, h⟩ := Logged.ofExcept_bind_eq_ok_iff.1 h
  obtain ⟨dis, -, h⟩ := Logged.ofExcept_bind_eq_ok_iff.1 h
  obtain ⟨rfl, rfl⟩ := pure_eq_ok_iff.1 h
  exact ⟨rfl, rfl⟩

end Flags

/-- **Unbounded explosions are those that never stop.** With an unbounded explosion
every script fails to roll a term, with a fault of the source unless a number is too
long. With any other one a script rolls the term, if the tags that are always left may
be written; only then there is one. And whoever chooses options is warned of an
unbounded explosion, once, and of nothing else. -/
theorem unbounded_never_stops (e : Explode) :
    (e.unbounded = true → ∀ (o : Options) (t : DiceTerm) (p : Script), o.explode = some e →
      ∃ f s, o.rollTerm t (.scripted p) = .error f s ∧
        (f.OfSource ∨ f = .numeralTooLongToWrite ∧ o.CutShort t p)) ∧
    (e.unbounded = false → ∀ (o : Options) (t : DiceTerm), o.explode = some e →
      (o.TagsWritable t →
        (∀ r, o.reroll = some r → 1 ≤ r.lte → Numeral.writable t.number = true) →
        ∃ values h s, o.rollTerm t (.scripted (.ofList values)) = .ok h s) ∧
      (Numeral.writable t.sides = true →
        (∃ values h s, o.rollTerm t (.scripted (.ofList values)) = .ok h s) → o.TagsWritable t)) ∧
    ∀ (flags : Flags) (o : Options) (log log' : List LogEntry), flags.options log = .ok o log' →
      o.explode = Flags.explodeOf flags.explode ∧ log' = log ++ warnings o.explode := by
  refine ⟨fun hu o t p he => Options.rollTerm_of_unbounded he hu t p,
    fun hu o t he => ⟨fun hw hn => ?_, fun hsides ⟨values, h, s, hok⟩ => ?_⟩,
    fun flags o log log' h => Flags.warnings_of_options h⟩
  · refine Options.exists_rollTerm_of_tagsWritable hw hn fun e' he' => ?_
    obtain rfl := Option.some.inj (he.symm.trans he')
    exact hu
  · exact Options.tagsWritable_of_ok hok hsides

/-- A die that explodes on every face, the same die with explosions on the highest
face, and the flag for the first of them. -/
theorem unbounded_never_stops_ones :
    let always : Explode := ⟨.atLeast 1, 0⟩
    let highest : Explode := ⟨.max, 0⟩
    let t : DiceTerm := ⟨1, 1, 6, 0, by decide, by decide, by decide⟩
    let p : Script := .ofList [3, 4]
    (always.unbounded = true ∧
      ∃ f s, Options.rollTerm { explode := some always } t (.scripted p) = .error f s ∧
        f.OfSource) ∧
    (highest.unbounded = false ∧
      ∃ values h s, Options.rollTerm { explode := some highest } t (.scripted (.ofList values)) =
        .ok h s) ∧
    ∃ o log', Flags.options { explode := some (.value always) } [] = .ok o log' ∧
      o.explode = some always ∧ log' = [unboundedWarning always] := by
  intro always highest t p
  have hfails := (unbounded_never_stops always).1 rfl { explode := some always } t p rfl
  have hnot : ¬ Options.CutShort { explode := some always } t p := by
    intro hc
    have hsmall : ∀ v ∈ p.pending, Numeral.writable v = true := by decide +kernel
    have hsides : Numeral.writable t.sides = true := by decide +kernel
    have hlength : Numeral.writable p.pending.length = true := by decide +kernel
    cases hc with
    | reroll hr => cases hr
    | sides hw => exact Bool.false_ne_true (hw.symm.trans hsides)
    | value hv hw => exact Bool.false_ne_true (hw.symm.trans (hsmall _ hv))
    | length hw => exact Bool.false_ne_true (hw.symm.trans hlength)
  have htags : Options.TagsWritable { explode := some highest } t := by
    refine ⟨nofun, nofun, nofun, fun e n he hn _ => ?_⟩
    cases he
    cases hn
  have hrolls :=
    ((unbounded_never_stops highest).2.1 rfl { explode := some highest } t rfl).1 htags nofun
  obtain ⟨o, log', hok⟩ : ∃ o log',
      Flags.options { explode := some (.value always) } [] = .ok o log' := ⟨_, _, rfl⟩
  obtain ⟨hexplode, hlog⟩ := (unbounded_never_stops always).2.2 _ o [] log' hok
  obtain ⟨f, s, herr, hf | ⟨-, hc⟩⟩ := hfails
  · rw [hexplode] at hlog
    exact ⟨⟨rfl, f, s, herr, hf⟩, ⟨rfl, hrolls⟩, o, log', hok, hexplode, hlog⟩
  · exact absurd hc hnot

/-- Both values are faces of the die and the explosion never stops, yet the script is
not used up: the tag of the reroll comes first, and cannot be written. -/
theorem not_ofSource_of_long_reroll :
    let e : Explode := ⟨.atLeast 1, 0⟩
    let o : Options :=
      { reroll := some ⟨(Nat.pow 10 Numeral.digitLimit : Nat)⟩, explode := some e }
    let t : DiceTerm := ⟨1, 1, 6, 0, by decide, by decide, by decide⟩
    e.unbounded = true ∧ o.explode = some e ∧
      ∃ f s, o.rollTerm t (.scripted (.ofList [3, 4])) = .error f s ∧ ¬ f.OfSource := by
  have hlimit := not_writable_limit
  -- which number it is does not matter, and it is too large to be looked at
  generalize Nat.pow 10 Numeral.digitLimit = n at hlimit ⊢
  intro e o t
  have hroll := Options.rollTerm_of_unwritable (o := o) (t := t) rfl rfl hlimit rfl (by decide)
  exact ⟨rfl, rfl, _, _, hroll, by rintro (h | h) <;> cases h⟩

end CommandLine
end DiceRoller
