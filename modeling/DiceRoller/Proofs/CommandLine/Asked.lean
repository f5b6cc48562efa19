/-
# What the flags ask for

Values of flags are read from texts, so their numbers may be written
(`parse_writable`). Each flag then asks for a part of the options whose numbers
may be written too, or it is refused with a fault of the library (`Asks`). The
one exception is a pick without a value: it is refused too, but not with a fault
of the library. The steps from the flags to the options are put one after the
other, and so are their ends (`Logged.Ends.bind`, `Flags.options_ends`).

Key definitions: `Flags.Writable`, `Asks`, `Logged.Ends`.
Key theorems: `parse_writable`, `readCount_cases`, `Flags.options_ends`.
-/
import DiceRoller.CommandLine.Selection
import DiceRoller.Fault.Kind
import DiceRoller.Proofs.CommandLine.Changes
import DiceRoller.Proofs.Hand.Stuck
import DiceRoller.Proofs.Text.Writable
import DiceRoller.Proofs.Text.Written

namespace DiceRoller
namespace CommandLine

/-! ### Values that are read -/

namespace Value

variable {text : String}

theorem writable_of_whole {n : Int} (h : whole text = .ok n) : Numeral.writable n = true := by
  unfold whole at h
  split at h
  · next hread =>
    cases h
    exact Numeral.writable_of_read? hread
  · cases h

theorem writable_of_count {n : Nat} (h : count text = .ok n) : Numeral.writable n = true := by
  unfold count at h
  split at h
  · cases h
  · next m hread =>
    split at h
    · cases h
    · next hm =>
      cases h
      rw [Int.toNat_of_nonneg (Int.not_lt.1 hm)]
      exact Numeral.writable_of_read? hread

theorem writable_of_threshold {t : Threshold} (h : threshold text = .ok t) :
    t.numbers.all Numeral.writable = true := by
  unfold threshold at h
  split at h
  · cases h
    rfl
  · split at h
    · next hread =>
      cases h
      exact all_writable_singleton (Numeral.writable_of_read? hread)
    · cases h

theorem writable_of_explosion {e : Explode} (h : explosion text = .ok e) :
    e.recordNumbers.all Numeral.writable = true := by
  unfold explosion at h
  obtain ⟨t, ht, h⟩ := exceptBind_eq_ok_iff.1 h
  have hthreshold := writable_of_threshold ht
  split at h
  · cases h
    exact all_writable_append hthreshold writable_zero
  · obtain ⟨cap, hcap, h⟩ := exceptBind_eq_ok_iff.1 h
    cases h
    exact all_writable_append hthreshold (writable_of_count hcap)

theorem writable_of_pick {p : Int × Int} (h : pick text = .ok p) :
    Numeral.writable p.1 = true ∧ Numeral.writable p.2 = true := by
  unfold pick at h
  split at h
  · next hpair =>
    cases h
    obtain ⟨m, hm, hrest⟩ := Option.bind_eq_some_iff.1 hpair
    obtain ⟨n, hn, hp⟩ := Option.bind_eq_some_iff.1 hrest
    cases hp
    exact ⟨Numeral.writable_of_read? hm, Numeral.writable_of_read? hn⟩
  · cases h

end Value

/-- The values of the flags have numbers that may be written. -/
structure Flags.Writable (flags : Flags) : Prop where
  dropLowest : ∀ n : Nat, flags.dropLowest = some (.value n) → Numeral.writable n = true
  dropHighest : ∀ n : Nat, flags.dropHighest = some (.value n) → Numeral.writable n = true
  reroll : ∀ n, flags.reroll = some (.value n) → Numeral.writable n = true
  explode : ∀ e, flags.explode = some (.value e) → e.recordNumbers.all Numeral.writable = true
  advantage : ∀ p, flags.advantage = some (.value p) →
    Numeral.writable p.1 = true ∧ Numeral.writable p.2 = true
  disadvantage : ∀ p, flags.disadvantage = some (.value p) →
    Numeral.writable p.1 = true ∧ Numeral.writable p.2 = true

/-- A value that is given was read. -/
theorem read_of_readGiven {α : Type} {flag : Flag} {read : String → Except ValueProblem α}
    {text : String} {a : α} (h : readGiven flag read text = .ok (.value a)) :
    read text = .ok a := by
  unfold readGiven at h
  split at h
  · cases h
  · split at h
    · next hread =>
      cases h
      exact hread
    · cases h

/-- A flag that is set has a value whose numbers may be written. -/
theorem Flags.set_writable {flags flags' : Flags} {f : Flag} {text : String}
    (h : flags.set f text = .ok flags') (hw : flags.Writable) : flags'.Writable := by
  cases f <;> obtain ⟨v, hv, h⟩ := exceptBind_eq_ok_iff.1 h <;> cases h
  case seed => exact ⟨hw.1, hw.2, hw.3, hw.4, hw.5, hw.6⟩
  case dropLowest =>
    refine { hw with dropLowest := ?_ }
    rintro n ⟨⟩
    exact Value.writable_of_count (read_of_readGiven hv)
  case dropHighest =>
    refine { hw with dropHighest := ?_ }
    rintro n ⟨⟩
    exact Value.writable_of_count (read_of_readGiven hv)
  case reroll =>
    refine { hw with reroll := ?_ }
    rintro n ⟨⟩
    exact Value.writable_of_whole (read_of_readGiven hv)
  case explode =>
    refine { hw with explode := ?_ }
    rintro n ⟨⟩
    exact Value.writable_of_explosion (read_of_readGiven hv)
  case advantage =>
    refine { hw with advantage := ?_ }
    rintro n ⟨⟩
    exact Value.writable_of_pick (read_of_readGiven hv)
  case disadvantage =>
    refine { hw with disadvantage := ?_ }
    rintro n ⟨⟩
    exact Value.writable_of_pick (read_of_readGiven hv)

/-- Whatever numbers stand in the arguments of a command, they may be written. -/
theorem parse_writable {argv : List String} {args : Arguments} (h : parse argv = .ok args) :
    args.flags.Writable :=
  parse_induct (fun _ _ _ _ => Flags.set_writable) ⟨nofun, nofun, nofun, nofun, nofun, nofun⟩ h

/-! ### Parts of the options -/

/-- A datum that is refused can be quoted if its numbers may be written. -/
theorem refuse_eq_error {α : Type} {problem : String → OptionProblem} {d : Datum}
    (hd : d.numbers.all Numeral.writable = true) :
    (refuse problem d : Except Fault α) = .error (.invalidOption (problem d.shown)) := by
  rw [refuse, Datum.quote, Numeral.publish_eq_ok_iff.2 ⟨hd, rfl⟩]
  rfl

theorem all_writable_number {n : Int} (hn : Numeral.writable n = true) :
    (Datum.number n).numbers.all Numeral.writable = true :=
  all_writable_singleton hn

theorem all_writable_blank : (Datum.list []).numbers.all Numeral.writable = true := by
  simp [Datum.numbers, Datum.itemNumbers]

/-- A count is read from a datum whose number may be written, or it is refused with a
fault of the library. -/
theorem readCount_cases (name : String) {d : Datum} (hd : d.numbers.all Numeral.writable = true) :
    (∃ n : Nat, readCount name d = .ok n ∧ Numeral.writable n = true) ∨
      ∃ f, readCount name d = .error f ∧ f.kind.isDice = true := by
  unfold readCount
  split
  · next n =>
    split
    · next hn =>
      refine .inl ⟨n.toNat, rfl, ?_⟩
      rw [Int.toNat_of_nonneg hn]
      exact List.all_eq_true.1 hd n (List.mem_singleton.2 rfl)
    · exact .inr ⟨_, refuse_eq_error hd, rfl⟩
  · exact .inr ⟨_, refuse_eq_error hd, rfl⟩

/-- The flag asks for a part whose numbers may be written, or it is refused with a
fault of the library. -/
def Asks {α : Type} (x : Except Fault (Option α)) (numbers : α → List Int) : Prop :=
  (∃ part, x = .ok part ∧ ∀ a, part = some a → (numbers a).all Numeral.writable = true) ∨
    ∃ f, x = .error f ∧ f.kind.isDice = true

namespace Asks

variable {α : Type} {numbers : α → List Int} {x : Except Fault α}

theorem none (numbers : α → List Int) : Asks (.ok none) numbers :=
  .inl ⟨_, rfl, nofun⟩

theorem some {a : α} (hx : x = .ok a) (ha : (numbers a).all Numeral.writable = true) :
    Asks (x.map some) numbers := by
  rw [hx]
  exact .inl ⟨_, rfl, fun _ h => Option.some.inj h ▸ ha⟩

theorem refused {f : Fault} (hx : x = .error f) (hf : f.kind.isDice = true) :
    Asks (x.map Option.some) numbers := by
  rw [hx]
  exact .inr ⟨f, rfl, hf⟩

end Asks

namespace Flags

theorem dropOf_asks {g : Option (Given Nat)}
    (hw : ∀ n : Nat, g = some (.value n) → Numeral.writable n = true) :
    Asks (dropOf g) DropCount.recordNumbers := by
  rcases g with _ | g
  · exact .none _
  · have hnumbers : (g.datum Int.ofNat).numbers.all Numeral.writable = true := by
      cases g with
      | blank => exact all_writable_blank
      | value n => exact all_writable_number (hw n rfl)
    rcases readCount_cases "Drop count" hnumbers with ⟨n, hn, hwritable⟩ | ⟨f, hf, hdice⟩
    · exact .some (a := ⟨n⟩) (exceptBind_of_ok hn) (all_writable_singleton hwritable)
    · exact .refused (exceptBind_eq_error_iff.2 (.inl hf)) hdice

theorem rerollOf_asks {g : Option (Given Int)}
    (hw : ∀ n, g = some (.value n) → Numeral.writable n = true) :
    Asks (rerollOf g) Reroll.recordNumbers := by
  rcases g with _ | _ | n
  · exact .none _
  · have hblank : Reroll.make (.list []) =
        .error (.invalidOption (.badReroll (Datum.list []).shown)) :=
      refuse_eq_error all_writable_blank
    exact .refused hblank rfl
  · exact .some rfl (all_writable_singleton (hw n rfl))

/-- A pick is asked for like the other parts, unless it has no value. -/
theorem pickOf_asks {g : Option (Given (Int × Int))} (hg : g ≠ some .blank)
    (hw : ∀ p, g = some (.value p) →
      Numeral.writable p.1 = true ∧ Numeral.writable p.2 = true) :
    Asks (pickOf g) MultiRoll.recordNumbers := by
  rcases g with _ | _ | ⟨sides, times⟩
  · exact .none _
  · exact absurd rfl hg
  · obtain ⟨hsides, htimes⟩ := hw _ rfl
    show Asks ((MultiRoll.make (.number sides) (.number times)).map Option.some) _
    rcases readCount_cases "Target sides" (all_writable_number hsides) with
      ⟨m, hm, hwritable⟩ | ⟨f, hf, hdice⟩
    · by_cases htwo : 2 ≤ times
      · have hmake : MultiRoll.make (.number sides) (.number times) =
            .ok ⟨m, times.toNat, by omega⟩ := by
          rw [MultiRoll.make, exceptBind_of_ok hm]
          exact dif_pos htwo
        have htimes' : Numeral.writable times.toNat = true := by
          rw [Int.toNat_of_nonneg (Int.le_trans (by decide) htwo)]
          exact htimes
        have hpart : [(m : Int), (times.toNat : Int)].all Numeral.writable = true :=
          Bool.and_eq_true_iff.2 ⟨hwritable, all_writable_singleton htimes'⟩
        exact .some hmake hpart
      · have hmake : MultiRoll.make (.number sides) (.number times) =
            .error (.invalidOption (.badTimes (Datum.number times).shown)) := by
          rw [MultiRoll.make, exceptBind_of_ok hm]
          exact (dif_neg htwo).trans (refuse_eq_error (all_writable_number htimes))
        exact .refused hmake rfl
    · exact .refused (exceptBind_eq_error_iff.2 (.inl hf)) hdice

end Flags

/-! ### Options -/

/-- Whatever the log is, the step ends with a value or a fault of which the one or the
other is said. -/
def Logged.Ends {α : Type} (x : Logged α) (result : α → Prop) (fault : Fault → Prop) : Prop :=
  ∀ log, (∃ a log', x log = .ok a log' ∧ result a) ∨ ∃ f log', x log = .error f log' ∧ fault f

namespace Logged.Ends

variable {α β : Type} {x : Logged α} {next : α → Logged β} {result : α → Prop}
  {result' : β → Prop} {fault : Fault → Prop}

theorem pure {a : α} (ha : result a) : Ends (Pure.pure a) result fault :=
  fun log => .inl ⟨a, log, rfl, ha⟩

theorem throw {f : Fault} (hf : fault f) : Ends (Logged.ofExcept (.error f)) result fault :=
  fun log => .inr ⟨f, log, rfl, hf⟩

/-- Two steps end as the second one does after the first. -/
theorem bind (hx : Ends x result fault) (hnext : ∀ a, result a → Ends (next a) result' fault) :
    Ends (x >>= next) result' fault := by
  intro log
  rcases hx log with ⟨a, log', hok, ha⟩ | ⟨f, log', herr, hf⟩
  · rw [bind_of_ok hok]
    exact hnext a ha log'
  · rw [bind_of_error herr]
    exact .inr ⟨f, log', rfl, hf⟩

end Logged.Ends

/-- A part that is asked for is a step that ends with it. -/
theorem Asks.ends {α : Type} {x : Except Fault (Option α)} {numbers : α → List Int}
    {fault : Fault → Prop} (hx : Asks x numbers)
    (hfault : ∀ f : Fault, f.kind.isDice = true → fault f) :
    Logged.Ends (Logged.ofExcept x)
      (fun part => ∀ a, part = Option.some a → (numbers a).all Numeral.writable = true) fault := by
  rcases hx with ⟨part, rfl, hpart⟩ | ⟨f, rfl, hf⟩
  · exact .pure hpart
  · exact .throw (hfault f hf)

/-- Parts whose numbers may be written make options whose numbers may be written. -/
theorem all_recordNumbers {o : Options}
    (hlow : ∀ d, o.dropLowest = some d → d.recordNumbers.all Numeral.writable = true)
    (hhigh : ∀ d, o.dropHighest = some d → d.recordNumbers.all Numeral.writable = true)
    (hreroll : ∀ r, o.reroll = some r → r.recordNumbers.all Numeral.writable = true)
    (hexplode : ∀ e, o.explode = some e → e.recordNumbers.all Numeral.writable = true)
    (hadv : ∀ m, o.advantage = some m → m.recordNumbers.all Numeral.writable = true)
    (hdis : ∀ m, o.disadvantage = some m → m.recordNumbers.all Numeral.writable = true) :
    o.recordNumbers.all Numeral.writable = true := by
  have hpart : ∀ {α : Type} {make : α → OptionPart} {part : Option α},
      (∀ a, part = some a → (make a).recordNumbers.all Numeral.writable = true) →
      (((part.map make).map OptionPart.recordNumbers).getD []).all Numeral.writable = true := by
    rintro α make (_ | a) ha
    · rfl
    · exact ha a rfl
  simp only [Options.recordNumbers, Options.parts, List.flatMap_cons, List.flatMap_nil,
    List.all_append, Bool.and_eq_true]
  exact ⟨hpart hlow, hpart hhigh, hpart hreroll, hpart hexplode, hpart hadv, hpart hdis, rfl⟩

/-- The numbers that go into tags are numbers of the options. -/
theorem tagNumbers_writable {o : Options} (hw : o.recordNumbers.all Numeral.writable = true) :
    o.tagNumbers.all Numeral.writable = true := by
  refine List.all_eq_true.2 fun n hn => List.all_eq_true.1 hw n ?_
  obtain ⟨low, high, reroll, explode, advantage, disadvantage⟩ := o
  simp only [Options.tagNumbers, List.mem_append, List.mem_map, Option.mem_toList,
    List.mem_flatMap] at hn
  simp only [Options.recordNumbers, Options.parts, List.flatMap_cons, List.mem_append]
  rcases hn with ((⟨d, rfl, rfl⟩ | ⟨d, rfl, rfl⟩) | ⟨r, rfl, rfl⟩) | ⟨e, rfl, hn⟩
  · exact .inl (List.mem_singleton.2 rfl)
  · exact .inr (.inl (List.mem_singleton.2 rfl))
  · exact .inr (.inr (.inl (List.mem_singleton.2 rfl)))
  · exact .inr (.inr (.inr (.inl (List.mem_append_left _ hn))))

namespace Flags

/-- With or without the warning about an explosion, the choice of options goes on. -/
theorem warn_ends {explode : Option Explode} {next : Unit → Logged Options}
    {result : Options → Prop} {fault : Fault → Prop} (hnext : (next ()).Ends result fault) :
    Logged.Ends (match explode with
      | some e => if e.unbounded then Logged.enter (unboundedWarning e) >>= next else next ()
      | none => next ()) result fault := by
  rcases explode with _ | e
  · exact hnext
  · have hwarn : Logged.Ends (Logged.enter (unboundedWarning e)) (fun _ => True) fault :=
      fun log => .inl ⟨(), _, rfl, trivial⟩
    show Logged.Ends (if e.unbounded then _ else _) _ _
    split
    · exact hwarn.bind fun _ _ => hnext
    · exact hnext

/-- A pick that has no value is refused with a fault outside the tree. -/
def PickMissing (flags : Flags) (f : Fault) : Prop :=
  f = MultiRoll.sidesMissing ∧
    (flags.advantage = some .blank ∨ flags.disadvantage = some .blank)

theorem pickOf_ends {g : Option (Given (Int × Int))} {fault : Fault → Prop}
    (hw : ∀ p, g = some (.value p) → Numeral.writable p.1 = true ∧ Numeral.writable p.2 = true)
    (hfault : ∀ f : Fault, f.kind.isDice = true → fault f)
    (hblank : g = some .blank → fault MultiRoll.sidesMissing) :
    Logged.Ends (Logged.ofExcept (pickOf g))
      (fun part => ∀ m, part = some m → m.recordNumbers.all Numeral.writable = true) fault := by
  by_cases hg : g = some .blank
  · rw [hg]
    exact .throw (hblank hg)
  · exact (pickOf_asks hg hw).ends hfault

theorem explodeOf_writable {g : Option (Given Explode)}
    (hw : ∀ e, g = some (.value e) → e.recordNumbers.all Numeral.writable = true) :
    ∀ e, explodeOf g = some e → e.recordNumbers.all Numeral.writable = true := by
  rintro e he
  rcases g with _ | _ | e'
  · cases he
  · cases he
    exact all_writable_singleton writable_zero
  · cases he
    exact hw _ rfl

/-- **What the flags end in.** Flags whose numbers may be written give options whose
numbers may be written, or one of them is refused with a fault of the library. Only a
pick without a value ends in another fault. -/
theorem options_ends {flags : Flags} (hw : flags.Writable) :
    flags.options.Ends
      (fun o => o.recordNumbers.all Numeral.writable = true ∧ o.explode = explodeOf flags.explode)
      (fun f => f.kind.isDice = true ∨ flags.PickMissing f) := by
  rw [options]
  refine ((dropOf_asks hw.dropLowest).ends fun _ => .inl).bind fun low hlow => ?_
  refine ((dropOf_asks hw.dropHighest).ends fun _ => .inl).bind fun high hhigh => ?_
  refine ((rerollOf_asks hw.reroll).ends fun _ => .inl).bind fun reroll hreroll => ?_
  refine warn_ends ?_
  refine (pickOf_ends hw.advantage (fun _ => .inl) fun h => .inr ⟨rfl, .inl h⟩).bind
    fun adv hadv => ?_
  refine (pickOf_ends hw.disadvantage (fun _ => .inl) fun h => .inr ⟨rfl, .inr h⟩).bind
    fun dis hdis => ?_
  exact .pure ⟨all_recordNumbers hlow hhigh hreroll (explodeOf_writable hw.explode) hadv hdis, rfl⟩

end Flags

end CommandLine
end DiceRoller
