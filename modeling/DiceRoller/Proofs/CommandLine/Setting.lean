/-
# Options as settings of the command line

Options and a seed are rendered as settings, one argument each: the name of a
flag, an equals sign and the value. A cap of zero may be left out. Every setting
whose numbers may be written is read as itself (`Setting.set_flags`), and
settings of different flags do not disturb each other, so that their order does
not matter (`Options.apply_settings_of_perm`).

An expression may stand anywhere among them, or last after a divider; either way
the arguments are read as the expression and the flags (`parse_of_renders`), and
the flags give the options back (`Options.options_flags`).

Key definitions: `Setting`, `Setting.argument`, `Options.settings`, `Renders`.
Key theorems: `Setting.set_flags`, `classify_argument`, `parse_of_renders`,
`Options.options_flags`.
-/
import DiceRoller.CommandLine.Selection
import DiceRoller.Proofs.Steps
import DiceRoller.Proofs.Text.Writable
import DiceRoller.Proofs.Text.Written
import Mathlib.Data.List.Nodup
import Mathlib.Data.List.ReduceOption

namespace DiceRoller
namespace CommandLine

/-! ### Settings -/

/-- A flag with its value. -/
inductive Setting where
  | seed (n : Int)
  | dropLowest (count : Nat)
  | dropHighest (count : Nat)
  | reroll (lte : Int)
  /-- An explosion; `bare` says whether a cap of zero is left out. -/
  | explode (e : Explode) (bare : Bool)
  | advantage (sides times : Nat)
  | disadvantage (sides times : Nat)
  deriving DecidableEq, Repr

namespace Setting

/-- The flag of the setting. -/
def flag : Setting → Flag
  | seed _ => .seed
  | dropLowest _ => .dropLowest
  | dropHighest _ => .dropHighest
  | reroll _ => .reroll
  | explode _ _ => .explode
  | advantage _ _ => .advantage
  | disadvantage _ _ => .disadvantage

/-- The value of the setting, as it is written. -/
def text : Setting → String
  | seed n => toString n
  | dropLowest count => toString count
  | dropHighest count => toString count
  | reroll lte => toString lte
  | explode e bare =>
    e.threshold.text ++ (if bare ∧ e.cap = 0 then "" else "," ++ toString e.cap)
  | advantage sides times => toString sides ++ "," ++ toString times
  | disadvantage sides times => toString sides ++ "," ++ toString times

/-- The numbers in the value. -/
def numbers : Setting → List Int
  | seed n => [n]
  | dropLowest count => [count]
  | dropHighest count => [count]
  | reroll lte => [lte]
  | explode e _ => e.recordNumbers
  | advantage sides times => [sides, times]
  | disadvantage sides times => [sides, times]

/-- The setting as one argument. -/
def argument (s : Setting) : String := s.flag.name ++ "=" ++ s.text

/-- The flags with the setting. -/
def apply (flags : Flags) : Setting → Flags
  | seed n => { flags with seed := some (.value n) }
  | dropLowest count => { flags with dropLowest := some (.value count) }
  | dropHighest count => { flags with dropHighest := some (.value count) }
  | reroll lte => { flags with reroll := some (.value lte) }
  | explode e _ => { flags with explode := some (.value e) }
  | advantage sides times => { flags with advantage := some (.value (sides, times)) }
  | disadvantage sides times => { flags with disadvantage := some (.value (sides, times)) }

/-- Settings of different flags may be made in any order. -/
theorem apply_comm {s s' : Setting} (h : s.flag ≠ s'.flag) (flags : Flags) :
    apply (apply flags s) s' = apply (apply flags s') s := by
  cases s <;> cases s' <;> first | rfl | exact absurd rfl h

end Setting

/-! ### Values read back -/

namespace Value

theorem whole_toString {n : Int} (hn : Numeral.writable n = true) :
    whole (toString n) = .ok n := by
  rw [whole, Numeral.read?_toString hn]

theorem count_toString {n : Nat} (hn : Numeral.writable n = true) :
    count (toString n) = .ok n := by
  rw [count, Numeral.read?_toString_nat hn]
  simp

theorem threshold_text {t : Threshold} (ht : t.numbers.all Numeral.writable = true) :
    threshold t.text = .ok t := by
  cases t with
  | max => rfl
  | atLeast n =>
    have hn : Numeral.writable n = true := by simpa [Threshold.numbers] using ht
    have hword : toString n ≠ Threshold.maxWord :=
      (ne_toString (by decide : 'm' ∈ Threshold.maxWord.toList) (by decide) (by decide) n).symm
    rw [Threshold.text, threshold, if_neg hword, Numeral.read?_toString hn]

/-- A text is cut at the comma that is put into it. -/
theorem cutAtComma_append {head : List Char} (hh : ',' ∉ head) (tail : List Char) :
    cutAtComma (head ++ ',' :: tail) = (head, tail) := by
  induction head with
  | nil => rfl
  | cons c head ih =>
    have hne : c ≠ ',' := fun h => hh (h ▸ List.mem_cons_self)
    rw [List.cons_append, cutAtComma, ih fun h => hh (List.mem_cons_of_mem _ h)]
    exact fun h => absurd h hne

/-- A text without a comma is not cut. -/
theorem cutAtComma_self {head : List Char} (hh : ',' ∉ head) : cutAtComma head = (head, []) := by
  induction head with
  | nil => rfl
  | cons c head ih =>
    have hne : c ≠ ',' := fun h => hh (h ▸ List.mem_cons_self)
    rw [cutAtComma, ih fun h => hh (List.mem_cons_of_mem _ h)]
    exact fun h => absurd h hne

theorem comma_not_mem_threshold (t : Threshold) : ',' ∉ t.text.toList := by
  cases t with
  | max => decide
  | atLeast n => exact not_mem_toString (by decide) (by decide) n

theorem explosion_text {e : Explode} (he : e.recordNumbers.all Numeral.writable = true)
    (bare : Bool) : explosion (Setting.explode e bare).text = .ok e := by
  obtain ⟨t, cap⟩ := e
  rw [Explode.recordNumbers, List.all_append, Bool.and_eq_true] at he
  have hthreshold : threshold t.text = .ok t := threshold_text he.1
  have hcap : Numeral.writable cap = true := List.all_eq_true.1 he.2 _ (List.mem_singleton.2 rfl)
  have hcomma := comma_not_mem_threshold t
  rw [Setting.text, explosion]
  by_cases hbare : bare = true ∧ cap = 0
  · rw [if_pos hbare, String.append_empty, cutAtComma_self hcomma, hbare.2]
    simp only [String.ofList_toList, hthreshold]
    rfl
  · have htext : (t.text ++ ("," ++ toString cap)).toList =
        t.text.toList ++ ',' :: (toString cap).toList := by
      rw [String.toList_append, String.toList_append]
      rfl
    have hne : (toString cap).toList ≠ [] := by
      rw [toList_toString_nat]
      exact Nat.toDigits_ne_nil
    rw [if_neg hbare, htext, cutAtComma_append hcomma]
    simp only [String.ofList_toList, hthreshold, count_toString hcap, exceptBind_of_ok rfl,
      if_neg hne]
    rfl

theorem pick_text {m k : Nat} (hm : Numeral.writable m = true) (hk : Numeral.writable k = true) :
    pick (toString m ++ "," ++ toString k) = .ok (m, k) := by
  have htext : (toString m ++ "," ++ toString k).toList =
      (toString m).toList ++ ',' :: (toString k).toList := by
    rw [String.append_assoc, String.toList_append, String.toList_append]
    rfl
  have hcomma := not_mem_toString_nat (c := ',') (by decide) m
  rw [pick, pair?, htext, cutAtComma_append hcomma]
  simp only [Numeral.read?_toString_nat hm, Numeral.read?_toString_nat hk]
  rfl

end Value

/-- What is read as a value is not taken for a flag without one. -/
theorem readGiven_of_ok {α : Type} {flag : Flag} {read : String → Except ValueProblem α}
    {text : String} {a : α} (h : read text = .ok a) (hblank : (read "--").toOption = none) :
    readGiven flag read text = .ok (.value a) := by
  have hne : text ≠ "--" := by
    rintro rfl
    rw [h] at hblank
    cases hblank
  rw [readGiven, if_neg hne, h]

/-- A setting whose numbers may be written is read as itself. -/
theorem Setting.set_flags {s : Setting} (hs : s.numbers.all Numeral.writable = true)
    (flags : Flags) : flags.set s.flag s.text = .ok (s.apply flags) := by
  have hmem : ∀ n ∈ s.numbers, Numeral.writable n = true := List.all_eq_true.1 hs
  have hfirst : ∀ {n : Int} {ns : List Int}, s.numbers = n :: ns → Numeral.writable n = true :=
    fun h => hmem _ (h ▸ List.mem_cons_self)
  have hsecond : ∀ {m n : Int}, s.numbers = [m, n] → Numeral.writable n = true :=
    fun h => hmem _ (h ▸ List.mem_cons_of_mem _ List.mem_cons_self)
  have hwhole : (Value.whole "--").toOption = none := by decide
  have hcount : (Value.count "--").toOption = none := by decide
  have hpick : (Value.pick "--").toOption = none := by decide
  cases s with
  | seed n =>
    exact exceptBind_of_ok (readGiven_of_ok (Value.whole_toString (hfirst rfl)) hwhole)
  | dropLowest n =>
    exact exceptBind_of_ok (readGiven_of_ok (Value.count_toString (hfirst rfl)) hcount)
  | dropHighest n =>
    exact exceptBind_of_ok (readGiven_of_ok (Value.count_toString (hfirst rfl)) hcount)
  | reroll n =>
    exact exceptBind_of_ok (readGiven_of_ok (Value.whole_toString (hfirst rfl)) hwhole)
  | explode e bare =>
    exact exceptBind_of_ok (readGiven_of_ok (Value.explosion_text hs bare) (by decide))
  | advantage m k =>
    exact exceptBind_of_ok (readGiven_of_ok (Value.pick_text (hfirst rfl) (hsecond rfl)) hpick)
  | disadvantage m k =>
    exact exceptBind_of_ok (readGiven_of_ok (Value.pick_text (hfirst rfl) (hsecond rfl)) hpick)

/-! ### Arguments classified -/

/-- A text is cut at the first equals sign. -/
theorem cutAtEquals_append {head : List Char} (hh : '=' ∉ head) (tail : List Char) :
    cutAtEquals (head ++ '=' :: tail) = (head, some (String.ofList tail)) := by
  induction head with
  | nil => rfl
  | cons c head ih =>
    have hne : c ≠ '=' := fun h => hh (h ▸ List.mem_cons_self)
    rw [List.cons_append, cutAtEquals, ih fun h => hh (List.mem_cons_of_mem _ h)]
    exact fun h => absurd h hne

theorem equals_not_mem_name : ∀ s ∈ Switch.shortHelp :: Switch.long, '=' ∉ s.name.toList := by
  decide

theorem toList_flag_name (f : Flag) : ∃ rest, f.name.toList = '-' :: '-' :: rest := by
  cases f <;> exact ⟨_, rfl⟩

theorem ofName?_flag (f : Flag) : Switch.ofName? f.name.toList = some (.flag f) := by
  cases f <;> decide

theorem toList_flag_argument (f : Flag) (text : String) :
    (f.name ++ "=" ++ text).toList = f.name.toList ++ '=' :: text.toList := by
  rw [String.append_assoc, String.toList_append, String.toList_append]
  rfl

/-- The name of a flag, an equals sign and a text are the flag with the text. -/
theorem classify_flag (f : Flag) (text : String) :
    classify (f.name ++ "=" ++ text) = .ok (.switch (.flag f) (some text)) := by
  have hlist := toList_flag_argument f text
  have hnone : Switch.ofName? (f.name ++ "=" ++ text).toList = none := by
    refine List.find?_eq_none.2 fun s hs heq => ?_
    refine equals_not_mem_name s hs ?_
    rw [eq_of_beq heq, hlist]
    exact List.mem_append_right _ List.mem_cons_self
  have hname : '=' ∉ f.name.toList := by cases f <;> decide
  have hnamed : named? (f.name ++ "=" ++ text) = some (.switch (.flag f) (some text)) := by
    rw [named?, hnone, hlist, cutAtEquals_append hname, String.ofList_toList]
    simp only [ofName?_flag]
    rfl
  obtain ⟨rest, hrest⟩ := toList_flag_name f
  rw [hrest, List.cons_append, List.cons_append] at hlist
  rw [classify, hlist, hnamed]
  rfl

theorem classify_argument (s : Setting) :
    classify s.argument = .ok (.switch (.flag s.flag) (some s.text)) :=
  classify_flag s.flag s.text

/-- What does not begin with a dash is an operand. -/
theorem classify_operand {e : String} (he : e.toList.head? ≠ some '-') :
    classify e = .ok (.operand e) := by
  unfold classify
  split
  · next h => exact absurd (by rw [h]; rfl) he
  · next h => exact absurd (by rw [h]; rfl) he
  · rfl

theorem flag_argument_ne (f : Flag) (text : String) : f.name ++ "=" ++ text ≠ "--" := by
  intro h
  have hlist := congrArg String.toList h
  rw [toList_flag_argument] at hlist
  cases f <;> simp [Flag.name] at hlist

theorem classifyAll_cons {argument : String} {rest : List String} (h : argument ≠ "--") :
    classifyAll (argument :: rest) = (do
      let piece ← classify argument
      let pieces ← classifyAll rest
      return piece :: pieces) := by
  rw [classifyAll, if_neg h]

/-- Settings in front are classified by themselves. -/
theorem classifyAll_settings {rest : List String} {pieces : List Piece}
    (h : classifyAll rest = .ok pieces) (ss : List Setting) :
    classifyAll (ss.map Setting.argument ++ rest) =
      .ok (ss.map (fun s => .switch (.flag s.flag) (some s.text)) ++ pieces) := by
  induction ss with
  | nil => exact h
  | cons s ss ih =>
    have hne : s.argument ≠ "--" := flag_argument_ne s.flag s.text
    rw [List.map_cons, List.cons_append, classifyAll_cons hne, ih, classify_argument]
    rfl

/-! ### Arguments taken -/

/-- Settings are taken one after the other. -/
theorem take_settings {ss : List Setting}
    (hss : ∀ s ∈ ss, s.numbers.all Numeral.writable = true) (t : Taken) (rest : List Piece) :
    t.take (ss.map (fun s => .switch (.flag s.flag) (some s.text)) ++ rest) =
      Taken.take { t with flags := ss.foldl Setting.apply t.flags } rest := by
  induction ss generalizing t with
  | nil => rfl
  | cons s ss ih =>
    have hset := s.set_flags (hss s List.mem_cons_self) t.flags
    rw [List.map_cons, List.cons_append, Taken.take, exceptBind_of_ok hset,
      ih fun s hs => hss s (List.mem_cons_of_mem _ hs)]
    rfl

/-- An operand before settings is the expression, if there is none yet. -/
theorem take_operand {t : Taken} (ht : t.spec = none) (e : String) (ss : List Setting) :
    t.take (.operand e :: ss.map (fun s => .switch (.flag s.flag) (some s.text))) =
      (t.withSpec e).take (ss.map fun s => .switch (.flag s.flag) (some s.text)) := by
  cases ss <;> simp [Taken.take, ht]

/-! ### Options rendered -/

end CommandLine

open CommandLine

namespace Options

/-- The options and a seed as settings, each part that is there. -/
def settings (o : Options) (seed : Int) (bare : Bool) : List Setting :=
  [some (.seed seed), o.dropLowest.map fun d => .dropLowest d.count,
   o.dropHighest.map fun d => .dropHighest d.count, o.reroll.map fun r => .reroll r.lte,
   o.explode.map fun e => .explode e bare, o.advantage.map fun m => .advantage m.sides m.times,
   o.disadvantage.map fun m => .disadvantage m.sides m.times].reduceOption

/-- The flags that ask for the options and a seed. -/
def flags (o : Options) (seed : Int) : Flags where
  seed := some (.value seed)
  dropLowest := o.dropLowest.map fun d => .value d.count
  dropHighest := o.dropHighest.map fun d => .value d.count
  reroll := o.reroll.map fun r => .value r.lte
  explode := o.explode.map .value
  advantage := o.advantage.map fun m => .value (m.sides, m.times)
  disadvantage := o.disadvantage.map fun m => .value (m.sides, m.times)

variable {o : Options} {seed : Int} {bare : Bool}

theorem apply_settings (o : Options) (seed : Int) (bare : Bool) :
    (o.settings seed bare).foldl Setting.apply {} = o.flags seed := by
  obtain ⟨low, high, reroll, explode, advantage, disadvantage⟩ := o
  cases low <;> cases high <;> cases reroll <;> cases explode <;> cases advantage <;>
    cases disadvantage <;> rfl

theorem flags_sublist {ss : List (Option Setting)} {fs : List Flag}
    (h : List.Forall₂ (fun s? f => ∀ s : Setting, s? = some s → s.flag = f) ss fs) :
    (ss.reduceOption.map Setting.flag).Sublist fs := by
  induction h with
  | nil => exact .slnil
  | @cons s? f ss fs hs _ ih =>
    cases s? with
    | none => exact ih.cons f
    | some s =>
      rw [← hs s rfl]
      exact ih.cons_cons s.flag

/-- Each flag is set at most once. -/
theorem settings_nodup (o : Options) (seed : Int) (bare : Bool) :
    ((o.settings seed bare).map Setting.flag).Nodup := by
  have hmap : ∀ {α : Type} (part : Option α) (g : α → Setting) (f : Flag),
      (∀ a, (g a).flag = f) → ∀ s : Setting, part.map g = some s → s.flag = f := by
    intro α part g f hg s hs
    obtain ⟨a, -, rfl⟩ := Option.map_eq_some_iff.1 hs
    exact hg a
  have hseed : ∀ s : Setting, some (Setting.seed seed) = some s → s.flag = .seed := by
    rintro _ ⟨⟩
    rfl
  have hall : (((o.settings seed bare).map Setting.flag)).Sublist Flag.all :=
    flags_sublist (.cons hseed (.cons (hmap _ _ _ fun _ => rfl) (.cons (hmap _ _ _ fun _ => rfl)
      (.cons (hmap _ _ _ fun _ => rfl) (.cons (hmap _ _ _ fun _ => rfl)
      (.cons (hmap _ _ _ fun _ => rfl) (.cons (hmap _ _ _ fun _ => rfl) .nil)))))))
  exact hall.nodup (by decide)

/-- The order of the settings does not matter. -/
theorem apply_settings_of_perm {ss : List Setting} (hp : ss.Perm (o.settings seed bare)) :
    ss.foldl Setting.apply {} = o.flags seed := by
  rw [← apply_settings o seed bare]
  refine hp.foldl_eq' (fun s hs s' hs' flags => ?_) _
  by_cases heq : s = s'
  · rw [heq]
  · refine (Setting.apply_comm (fun hflag => heq ?_) flags)
    exact List.inj_on_of_nodup_map (settings_nodup o seed bare) (hp.mem_iff.1 hs)
      (hp.mem_iff.1 hs') hflag

/-! What the flags ask for. -/

theorem dropOf_value (part : Option DropCount) :
    Flags.dropOf (part.map fun d => .value d.count) = .ok part := by
  cases part with
  | none => rfl
  | some d =>
    have hcount : (0 : Int) ≤ Int.ofNat d.count := Int.natCast_nonneg _
    simp only [Option.map_some, Flags.dropOf, Given.datum, DropCount.make, readCount, if_pos hcount]
    rfl

theorem rerollOf_value (part : Option Reroll) :
    Flags.rerollOf (part.map fun r => .value r.lte) = .ok part := by
  cases part <;> rfl

theorem explodeOf_value (part : Option Explode) :
    Flags.explodeOf (part.map .value) = part := by
  cases part <;> rfl

theorem pickOf_value (part : Option MultiRoll) :
    Flags.pickOf (part.map fun m => .value (m.sides, m.times)) = .ok part := by
  cases part with
  | none => rfl
  | some m =>
    have hsides : (0 : Int) ≤ (m.sides : Int) := Int.natCast_nonneg _
    have htimes : (2 : Int) ≤ (m.times : Int) := by
      have := m.one_lt_times
      omega
    simp only [Option.map_some, Flags.pickOf, MultiRoll.make, readCount, if_pos hsides,
      dif_pos htimes]
    rfl

/-- The flags give the options back. -/
theorem options_flags (o : Options) (seed : Int) (log : List LogEntry) :
    ∃ log', (o.flags seed).options log = .ok o log' := by
  rw [Flags.options, flags, dropOf_value, dropOf_value, rerollOf_value, explodeOf_value,
    pickOf_value, pickOf_value]
  obtain ⟨low, high, reroll, explode, advantage, disadvantage⟩ := o
  cases explode with
  | none => exact ⟨log, rfl⟩
  | some e =>
    -- an explosion that never stops leaves a warning
    by_cases hwarn : e.unbounded = true
    · refine ⟨log ++ [unboundedWarning e], ?_⟩
      simp only [if_pos hwarn]
      rfl
    · refine ⟨log, ?_⟩
      simp only [if_neg hwarn]
      rfl

/-! ### Options among the arguments -/

/-- The arguments hold the expression and the settings, these in any order:
among the settings the expression must not begin with a dash; after a divider
at the end it may be any. -/
inductive Renders (e : String) (o : Options) (seed : Int) (bare : Bool) : List String → Prop
  | among {before after : List Setting} : (before ++ after).Perm (o.settings seed bare) →
      e.toList.head? ≠ some '-' →
      Renders e o seed bare (before.map Setting.argument ++ e :: after.map Setting.argument)
  | last {ss : List Setting} : ss.Perm (o.settings seed bare) →
      Renders e o seed bare (ss.map Setting.argument ++ ["--", e])

theorem numbers_settings (hw : (seed :: o.recordNumbers).all Numeral.writable = true) :
    ∀ s ∈ o.settings seed bare, s.numbers.all Numeral.writable = true := by
  rw [List.all_cons, Bool.and_eq_true] at hw
  have hpart : ∀ (name : String) (p : OptionPart), (name, some p) ∈ o.parts →
      p.recordNumbers.all Numeral.writable = true := by
    intro name p hp
    refine List.all_eq_true.2 fun n hn => List.all_eq_true.1 hw.2 n ?_
    exact List.mem_flatMap.2 ⟨_, hp, hn⟩
  intro s hs
  rw [settings, List.reduceOption_mem_iff] at hs
  simp only [List.mem_cons, List.not_mem_nil, or_false, eq_comm (a := some s),
    Option.map_eq_some_iff, Option.some.injEq] at hs
  rcases hs with rfl | ⟨d, hd, rfl⟩ | ⟨d, hd, rfl⟩ | ⟨r, hr, rfl⟩ | ⟨e, he, rfl⟩ | ⟨m, hm, rfl⟩ |
    ⟨m, hm, rfl⟩
  · exact all_writable_singleton hw.1
  · exact hpart "drop_lowest" (.drop d) (by simp [parts, hd])
  · exact hpart "drop_highest" (.drop d) (by simp [parts, hd])
  · exact hpart "reroll" (.reroll r) (by simp [parts, hr])
  · exact hpart "explode" (.explode e) (by simp [parts, he])
  · exact hpart "advantage" (.multiRoll m) (by simp [parts, hm])
  · exact hpart "disadvantage" (.multiRoll m) (by simp [parts, hm])

/-- Rendered arguments are read as the expression and the flags. -/
theorem parse_of_renders {e : String} {argv : List String} (h : Renders e o seed bare argv)
    (hw : (seed :: o.recordNumbers).all Numeral.writable = true) :
    parse argv = .ok ⟨e, o.flags seed⟩ := by
  cases h with
  | @among before after hp he =>
    have hall : ∀ s ∈ before ++ after, s.numbers.all Numeral.writable = true := fun s hs =>
      numbers_settings hw s (hp.mem_iff.1 hs)
    have hnil : classifyAll [] = .ok [] := rfl
    have hafter := classifyAll_settings hnil after
    rw [List.append_nil, List.append_nil] at hafter
    have hne : e ≠ "--" := by
      rintro rfl
      exact he rfl
    have htail : classifyAll (e :: after.map Setting.argument) =
        .ok (.operand e :: after.map fun s => .switch (.flag s.flag) (some s.text)) := by
      rw [classifyAll_cons hne, classify_operand he, hafter]
      rfl
    have htake : Taken.take {} (before.map (fun s => .switch (.flag s.flag) (some s.text)) ++
        .operand e :: after.map fun s => .switch (.flag s.flag) (some s.text)) =
          .ok { spec := some e, flags := o.flags seed } := by
      rw [take_settings fun s hs => hall s (List.mem_append_left _ hs), take_operand rfl]
      have hrest := take_settings (fun s hs => hall s (List.mem_append_right _ hs))
        (Taken.withSpec { flags := before.foldl Setting.apply {} } e) []
      rw [List.append_nil] at hrest
      rw [hrest, ← apply_settings_of_perm hp, List.foldl_append]
      rfl
    rw [parse, classifyAll_settings htail]
    simp only [htake]
    rfl
  | @last ss hp =>
    have hall : ∀ s ∈ ss, s.numbers.all Numeral.writable = true := fun s hs =>
      numbers_settings hw s (hp.mem_iff.1 hs)
    have htail : classifyAll ["--", e] = .ok [.divider, .operand e] := rfl
    have htake : Taken.take {} (ss.map (fun s => .switch (.flag s.flag) (some s.text)) ++
        [.divider, .operand e]) = .ok { spec := some e, flags := o.flags seed } := by
      rw [take_settings hall, ← apply_settings_of_perm hp]
      rfl
    rw [parse, classifyAll_settings htail]
    simp only [htake]
    rfl

end Options
end DiceRoller
