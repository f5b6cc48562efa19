/-
# What records and reports tell

Units, parts of the options and the options as a whole are recorded by their
kind and their fields (`Recorded.toRecord`). A record can be read in one way only
(`Record.text_inj`), and the fields say all there is to say, so two of these
values are equal exactly if their records are.

The report of a failed evaluation ends with a line for the options, and their
record has no line end in it. So whatever the expressions are, reports that are
the same are about the same options (`Recorded.same_iff_write_eq`).

Key definitions: `SignedUnit.toRecord`, `OptionPart.toRecord`,
`Options.toRecord`, `Recorded`, `Recorded.same`, `Recorded.write`.
Key theorems: `SignedUnit.toRecord_inj`, `OptionPart.toRecord_inj`,
`Options.toRecord_inj`, `Report.body_inj`, `Recorded.same_iff_write_eq`.
-/
import DiceRoller.Proofs.Steps
import DiceRoller.Proofs.Text.Record
import DiceRoller.Report

namespace DiceRoller

open Record (Plain PlainFields plain_toString plain_toString_nat)

/-! ### Units -/

namespace SignedUnit

/-- The unit as a record. -/
def toRecord : SignedUnit → Record
  | alone sign => .ofPlain "Term" [("sign", toString sign)] (by decide)
      (.cons (by decide) (plain_toString _) .nil) (List.cons_ne_nil _ _)
  | term (.constant t) =>
    .ofPlain "FlatTerm" [("sign", toString t.sign), ("value", toString t.value)] (by decide)
      (.cons (by decide) (plain_toString _) (.cons (by decide) (plain_toString _) .nil))
      (List.cons_ne_nil _ _)
  | term (.dice t) =>
    .ofPlain "DiceTerm" [("sign", toString t.sign), ("number", toString t.number),
        ("sides", toString t.sides), ("inline_drop_lowest", toString t.drop)] (by decide)
      (.cons (by decide) (plain_toString _) (.cons (by decide) (plain_toString_nat _)
        (.cons (by decide) (plain_toString_nat _) (.cons (by decide) (plain_toString_nat _) .nil))))
      (List.cons_ne_nil _ _)

theorem record_eq_text (u : SignedUnit) : u.record = u.toRecord.text := by
  match u with
  | alone _ =>
    have hsign : "Term(sign=" = "Term" ++ "(" ++ "sign" ++ "=" := rfl
    unfold record toRecord
    simp only [hsign, Record.text_ofPlain, Record.joined_singleton, String.append_assoc]
  | term (.constant _) =>
    have hsign : "FlatTerm(sign=" = "FlatTerm" ++ "(" ++ "sign" ++ "=" := rfl
    have hvalue : ", value=" = ", " ++ "value" ++ "=" := rfl
    unfold record Term.record ConstantTerm.record toRecord
    simp only [hsign, hvalue, Record.text_ofPlain, Record.joined_cons_cons,
      Record.joined_singleton, String.append_assoc]
  | term (.dice _) =>
    have hsign : "DiceTerm(sign=" = "DiceTerm" ++ "(" ++ "sign" ++ "=" := rfl
    have hnumber : ", number=" = ", " ++ "number" ++ "=" := rfl
    have hsides : ", sides=" = ", " ++ "sides" ++ "=" := rfl
    have hdrop : ", inline_drop_lowest=" = ", " ++ "inline_drop_lowest" ++ "=" := rfl
    unfold record Term.record DiceTerm.record toRecord
    simp only [hsign, hnumber, hsides, hdrop, Record.text_ofPlain, Record.joined_cons_cons,
      Record.joined_singleton, String.append_assoc]

theorem toRecord_inj {u v : SignedUnit} (hkind : u.toRecord.kind = v.toRecord.kind)
    (hfields : u.toRecord.fields = v.toRecord.fields) : u = v := by
  match u, v with
  | alone s, alone t =>
    simp only [toRecord, Record.ofPlain, List.cons.injEq, Prod.mk.injEq, true_and, and_true]
      at hfields
    rw [toString_int_inj hfields]
  | term (.constant ⟨s, m⟩), term (.constant ⟨t, n⟩) =>
    simp only [toRecord, Record.ofPlain, List.cons.injEq, Prod.mk.injEq, true_and, and_true]
      at hfields
    rw [toString_int_inj hfields.1, toString_int_inj hfields.2]
  | term (.dice ⟨s, n, m, k, _, _, _⟩), term (.dice ⟨s', n', m', k', _, _, _⟩) =>
    simp only [toRecord, Record.ofPlain, List.cons.injEq, Prod.mk.injEq, true_and, and_true]
      at hfields
    obtain ⟨hs, hn, hm, hk⟩ := hfields
    obtain rfl := toString_int_inj hs
    obtain rfl := toString_nat_inj hn
    obtain rfl := toString_nat_inj hm
    obtain rfl := toString_nat_inj hk
    rfl
  | alone _, term (.constant _) | alone _, term (.dice _) | term (.constant _), alone _
  | term (.constant _), term (.dice _) | term (.dice _), alone _
  | term (.dice _), term (.constant _) => simp [toRecord, Record.ofPlain] at hkind

end SignedUnit

/-! ### Parts of the options -/

namespace Threshold

/-- Quotes are no marks of a record. -/
theorem plain_record (t : Threshold) : Plain t.record := by
  cases t with
  | max => exact (by decide : Plain "'max'")
  | atLeast n => exact plain_toString n

theorem record_inj {t t' : Threshold} (h : t.record = t'.record) : t = t' := by
  have hquote : ∀ n : Int, (max : Threshold).record ≠ toString n :=
    ne_toString (by decide : '\'' ∈ (max : Threshold).record.toList) (by decide) (by decide)
  cases t with
  | max =>
    cases t' with
    | max => rfl
    | atLeast n => exact absurd h (hquote n)
  | atLeast n =>
    cases t' with
    | max => exact absurd h.symm (hquote n)
    | atLeast n' => rw [toString_int_inj h]

end Threshold

namespace OptionPart

/-- The part as a record. -/
def toRecord : OptionPart → Record
  | drop d => .ofPlain "DropCount" [("count", toString d.count)] (by decide)
      (.cons (by decide) (plain_toString_nat _) .nil) (List.cons_ne_nil _ _)
  | reroll r => .ofPlain "Reroll" [("lte", toString r.lte)] (by decide)
      (.cons (by decide) (plain_toString _) .nil) (List.cons_ne_nil _ _)
  | explode e =>
    .ofPlain "Explode" [("threshold", e.threshold.record), ("cap", toString e.cap)] (by decide)
      (.cons (by decide) e.threshold.plain_record (.cons (by decide) (plain_toString_nat _) .nil))
      (List.cons_ne_nil _ _)
  | multiRoll m =>
    .ofPlain "MultiRoll" [("sides", toString m.sides), ("times", toString m.times)] (by decide)
      (.cons (by decide) (plain_toString_nat _) (.cons (by decide) (plain_toString_nat _) .nil))
      (List.cons_ne_nil _ _)

theorem record_eq_text (p : OptionPart) : p.record = p.toRecord.text := by
  cases p with
  | drop _ =>
    have hcount : "DropCount(count=" = "DropCount" ++ "(" ++ "count" ++ "=" := rfl
    unfold record DropCount.record toRecord
    simp only [hcount, Record.text_ofPlain, Record.joined_singleton, String.append_assoc]
  | reroll _ =>
    have hlte : "Reroll(lte=" = "Reroll" ++ "(" ++ "lte" ++ "=" := rfl
    unfold record Reroll.record toRecord
    simp only [hlte, Record.text_ofPlain, Record.joined_singleton, String.append_assoc]
  | explode _ =>
    have hthreshold : "Explode(threshold=" = "Explode" ++ "(" ++ "threshold" ++ "=" := rfl
    have hcap : ", cap=" = ", " ++ "cap" ++ "=" := rfl
    unfold record Explode.record toRecord
    simp only [hthreshold, hcap, Record.text_ofPlain, Record.joined_cons_cons,
      Record.joined_singleton, String.append_assoc]
  | multiRoll _ =>
    have hsides : "MultiRoll(sides=" = "MultiRoll" ++ "(" ++ "sides" ++ "=" := rfl
    have htimes : ", times=" = ", " ++ "times" ++ "=" := rfl
    unfold record MultiRoll.record toRecord
    simp only [hsides, htimes, Record.text_ofPlain, Record.joined_cons_cons,
      Record.joined_singleton, String.append_assoc]

theorem toRecord_inj {p q : OptionPart} (hkind : p.toRecord.kind = q.toRecord.kind)
    (hfields : p.toRecord.fields = q.toRecord.fields) : p = q := by
  match p, q with
  | drop ⟨m⟩, drop ⟨n⟩ =>
    simp only [toRecord, Record.ofPlain, List.cons.injEq, Prod.mk.injEq, true_and, and_true]
      at hfields
    rw [toString_nat_inj hfields]
  | reroll ⟨m⟩, reroll ⟨n⟩ =>
    simp only [toRecord, Record.ofPlain, List.cons.injEq, Prod.mk.injEq, true_and, and_true]
      at hfields
    rw [toString_int_inj hfields]
  | explode ⟨t, m⟩, explode ⟨t', n⟩ =>
    simp only [toRecord, Record.ofPlain, List.cons.injEq, Prod.mk.injEq, true_and, and_true]
      at hfields
    rw [Threshold.record_inj hfields.1, toString_nat_inj hfields.2]
  | multiRoll ⟨m, k, _⟩, multiRoll ⟨n, l, _⟩ =>
    simp only [toRecord, Record.ofPlain, List.cons.injEq, Prod.mk.injEq, true_and, and_true]
      at hfields
    obtain rfl := toString_nat_inj hfields.1
    obtain rfl := toString_nat_inj hfields.2
    rfl
  | drop _, reroll _ | drop _, explode _ | drop _, multiRoll _ | reroll _, drop _
  | reroll _, explode _ | reroll _, multiRoll _ | explode _, drop _ | explode _, reroll _
  | explode _, multiRoll _ | multiRoll _, drop _ | multiRoll _, reroll _
  | multiRoll _, explode _ => simp [toRecord, Record.ofPlain] at hkind

theorem record_inj {p q : OptionPart} (h : p.record = q.record) : p = q := by
  rw [record_eq_text, record_eq_text] at h
  obtain ⟨hkind, hfields⟩ := Record.text_inj h
  exact toRecord_inj hkind hfields

theorem value_record (p : OptionPart) : Record.Value p.record := by
  rw [record_eq_text]
  cases p <;> rw [toRecord] <;> apply Record.value_ofPlain

end OptionPart

/-! ### The options -/

namespace Options

variable {p? q? : Option OptionPart} {o o' : Options}

theorem value_partRecord (p? : Option OptionPart) : Record.Value (partRecord p?) := by
  cases p? with
  | none => exact .plain (by decide : Plain "None")
  | some p => exact p.value_record

/-- What is absent is not written like a part. -/
theorem partRecord_inj (h : partRecord p? = partRecord q?) : p? = q? := by
  have habsent : ∀ p : OptionPart, "None" ≠ p.record := by
    intro p hp
    have hopen : '(' ∈ p.record.toList := by
      rw [p.record_eq_text, Record.text]
      simp
    rw [← hp] at hopen
    exact absurd hopen (by decide)
  cases p? with
  | none =>
    cases q? with
    | none => rfl
    | some q => exact absurd h (habsent q)
  | some p =>
    cases q? with
    | none => exact absurd h.symm (habsent p)
    | some q => rw [OptionPart.record_inj h]

/-- The parts with the texts of their records. -/
def fields (o : Options) : List (String × String) := o.parts.map fun p => (p.1, partRecord p.2)

/-- The options as a record. -/
def toRecord (o : Options) : Record where
  kind := "Options"
  fields := o.fields
  plain_kind := by decide
  plain_key := by
    intro f hf
    obtain ⟨p, hp, rfl⟩ := List.mem_map.1 hf
    have hnames : ∀ name ∈ o.parts.map Prod.fst, Plain name := by
      show ∀ name ∈ ["drop_lowest", "drop_highest", "reroll", "explode", "advantage",
        "disadvantage"], Plain name
      decide
    exact hnames p.1 (List.mem_map_of_mem hp)
  value := by
    intro f hf
    obtain ⟨p, -, rfl⟩ := List.mem_map.1 hf
    exact value_partRecord p.2
  ne_nil := List.cons_ne_nil _ _

theorem record_eq_text (o : Options) : o.record = o.toRecord.text := by
  have hopen : "Options(" = "Options" ++ "(" := rfl
  have hfields : (o.parts.map fun p => p.1 ++ "=" ++ partRecord p.2) =
      o.fields.map Record.field := by
    rw [fields, List.map_map]
    rfl
  unfold record toRecord Record.text Record.joined
  simp only [hopen, hfields]

theorem toRecord_inj (h : o.toRecord.fields = o'.toRecord.fields) : o = o' := by
  have hparts : o.parts = o'.parts := by
    change o.fields = o'.fields at h
    unfold fields at h
    refine (List.map_inj_right fun p q hpq => ?_).1 h
    obtain ⟨hname, hpart⟩ := Prod.mk.inj hpq
    exact Prod.ext hname (partRecord_inj hpart)
  have hdrop := Option.map_injective fun _ _ => OptionPart.drop.inj
  have hreroll := Option.map_injective fun _ _ => OptionPart.reroll.inj
  have hexplode := Option.map_injective fun _ _ => OptionPart.explode.inj
  have hmultiRoll := Option.map_injective fun _ _ => OptionPart.multiRoll.inj
  obtain ⟨low, high, r, e, a, d⟩ := o
  simp only [parts, List.cons.injEq, Prod.mk.injEq, true_and, and_true, hdrop.eq_iff,
    hreroll.eq_iff, hexplode.eq_iff, hmultiRoll.eq_iff] at hparts
  obtain ⟨rfl, rfl, rfl, rfl, rfl, rfl⟩ := hparts
  rfl

end Options

/-! ### Values that are compared and recorded -/

/-- A unit, a part of the options, or the options as a whole. -/
inductive Recorded where
  | unit (u : SignedUnit)
  | part (p : OptionPart)
  | options (o : Options)

namespace Recorded

variable {a b : Recorded} {x y : String}

/-- Whether two values are equal: units by what they are described with, the
others by their kinds and fields. -/
def same : Recorded → Recorded → Bool
  | unit u, unit v => u.draft.same v.draft
  | part p, part q => p == q
  | options o, options o' => o == o'
  | _, _ => false

/-- The record of the value, if its numbers may be written. -/
def write : Recorded → Except Fault String
  | unit u => u.draft.writeRecord
  | part p => Numeral.publish p.recordNumbers p.record
  | options o => Numeral.publish o.recordNumbers o.record

/-- The value as a record. -/
def toRecord : Recorded → Record
  | unit u => u.toRecord
  | part p => p.toRecord
  | options o => o.toRecord

theorem same_iff : a.same b = true ↔ a = b := by
  cases a <;> cases b <;> simp [same, SignedUnit.draft_same]

theorem eq_text_of_write (h : a.write = .ok x) : x = a.toRecord.text := by
  cases a with
  | unit u =>
    obtain ⟨-, rfl⟩ := Numeral.publish_eq_ok_iff.1 h
    rw [u.draft_record, u.record_eq_text]
    rfl
  | part p =>
    obtain ⟨-, rfl⟩ := Numeral.publish_eq_ok_iff.1 h
    exact p.record_eq_text
  | options o =>
    obtain ⟨-, rfl⟩ := Numeral.publish_eq_ok_iff.1 h
    exact o.record_eq_text

theorem toRecord_inj (hkind : a.toRecord.kind = b.toRecord.kind)
    (hfields : a.toRecord.fields = b.toRecord.fields) : a = b := by
  have hoptions : ∀ o : Options, o.toRecord.kind = "Options" := fun _ => rfl
  have hpart : ∀ p : OptionPart,
      p.toRecord.kind ∈ ["DropCount", "Reroll", "Explode", "MultiRoll"] := by
    intro p
    cases p <;> simp [OptionPart.toRecord, Record.ofPlain]
  have hunit : ∀ u : SignedUnit, u.toRecord.kind ≠ "Options" ∧
      u.toRecord.kind ∉ ["DropCount", "Reroll", "Explode", "MultiRoll"] := by
    intro u
    match u with
    | .alone _ | .term (.constant _) | .term (.dice _) =>
      simp [SignedUnit.toRecord, Record.ofPlain]
  match a, b with
  | unit u, unit v => rw [SignedUnit.toRecord_inj hkind hfields]
  | part p, part q => rw [OptionPart.toRecord_inj hkind hfields]
  | options o, options o' => rw [Options.toRecord_inj hfields]
  | unit u, part p => exact absurd (hkind ▸ hpart p) (hunit u).2
  | part p, unit u => exact absurd (hkind ▸ hpart p) (hunit u).2
  | unit u, options o => exact absurd (hkind.trans (hoptions o)) (hunit u).1
  | options o, unit u => exact absurd (hkind.symm.trans (hoptions o)) (hunit u).1
  | part p, options o => exact absurd (hkind.trans (hoptions o) ▸ hpart p) (by decide)
  | options o, part p => exact absurd (hkind.symm.trans (hoptions o) ▸ hpart p) (by decide)

end Recorded

/-! ### Reports -/

namespace Report

variable {e e' : Datum} {o o' : Options} {t t' : String}

theorem eq_of_body (h : body e (some o) = .ok t) :
    t = "Failed to evaluate: " ++ e.plain ++ "\n" ++ ("    Options: " ++ o.record) := by
  have hline : "\n    Options: " = "\n" ++ "    Options: " := rfl
  obtain ⟨x, hx, hrest⟩ := exceptBind_eq_ok_iff.1 h
  obtain ⟨y, hy, hout⟩ := exceptBind_eq_ok_iff.1 hrest
  obtain ⟨-, rfl⟩ := Numeral.publish_eq_ok_iff.1 hx
  obtain ⟨-, rfl⟩ := Numeral.publish_eq_ok_iff.1 hy
  cases hout
  simp only [hline, String.append_assoc]

theorem lines_inj {x x' y y' : String} (hy : '\n' ∉ y.toList) (hy' : '\n' ∉ y'.toList)
    (h : x ++ "\n" ++ y = x' ++ "\n" ++ y') : x = x' ∧ y = y' := by
  -- read from the end, the lines come before the first line end
  have hchars := congrArg (fun s => s.toList.reverse) h
  simp only [String.toList_append, List.reverse_append, List.append_assoc,
    show "\n".toList.reverse = ['\n'] from rfl, List.cons_append, List.nil_append] at hchars
  obtain ⟨hlast, hfront⟩ := append_inj_of_not_mem (mt List.mem_reverse.1 hy)
    (mt List.mem_reverse.1 hy') hchars
  exact ⟨String.toList_inj.1 (List.reverse_inj.1 hfront),
    String.toList_inj.1 (List.reverse_inj.1 hlast)⟩

theorem body_inj (h : body e (some o) = .ok t) (h' : body e' (some o') = .ok t) :
    e.plain = e'.plain ∧ o = o' := by
  have hline : ∀ o : Options, '\n' ∉ ("    Options: " ++ o.record).toList := by
    intro o
    rw [o.record_eq_text]
    exact not_mem_append (by decide) o.toRecord.line_not_mem_text
  obtain ⟨hexpression, hrecord⟩ := lines_inj (hline o) (hline o')
    ((eq_of_body h).symm.trans (eq_of_body h'))
  have htext : o.toRecord.text = o'.toRecord.text := by
    rw [← o.record_eq_text, ← o'.record_eq_text]
    exact (String.append_right_inj _).1 hrecord
  exact ⟨(String.append_right_inj _).1 hexpression,
    Options.toRecord_inj (Record.text_inj htext).2⟩

end Report

/-- **Records tell what is recorded.** Two values that have records are equal
exactly if their records are; and the reports of two failed evaluations with
options are the same exactly if the expressions are written alike and the options
are equal. -/
theorem Recorded.same_iff_write_eq :
    (∀ {a b : Recorded} {x y : String}, a.write = .ok x → b.write = .ok y →
      (a.same b = true ↔ x = y)) ∧
    (∀ {e e' : Datum} {o o' : Options} {t t' : String}, Report.body e (some o) = .ok t →
      Report.body e' (some o') = .ok t' →
        (t = t' ↔ e.plain = e'.plain ∧ (o == o') = true)) := by
  constructor
  · intro a b x y hx hy
    rw [same_iff, eq_text_of_write hx, eq_text_of_write hy]
    constructor
    · rintro rfl
      rfl
    · intro h
      obtain ⟨hkind, hfields⟩ := Record.text_inj h
      exact toRecord_inj hkind hfields
  · intro e e' o o' t t' ht ht'
    rw [beq_iff_eq]
    constructor
    · rintro rfl
      exact Report.body_inj ht ht'
    · rintro ⟨hexpression, rfl⟩
      rw [Report.eq_of_body ht, Report.eq_of_body ht', hexpression]

/-- A threshold by its word and one by its number, and two reports of which one
has a line for options in its expression. -/
theorem Recorded.same_iff_write_eq_explode :
    let a : Recorded := .part (.explode ⟨.max, 2⟩)
    let b : Recorded := .part (.explode ⟨.atLeast (-3), 2⟩)
    let o : Options := { reroll := some ⟨1⟩ }
    let e : Datum := .text "d6"
    let e' : Datum := .text "d6\n    Options: Options()"
    a.write = .ok "Explode(threshold='max', cap=2)" ∧
      b.write = .ok "Explode(threshold=-3, cap=2)" ∧ a.same b = false ∧
      ∃ t t', Report.body e (some o) = .ok t ∧ Report.body e' (some {}) = .ok t' ∧ t ≠ t' := by
  intro a b o e e'
  have ha : a.write = .ok "Explode(threshold='max', cap=2)" :=
    Numeral.publish_eq_ok_iff.2 ⟨by decide +kernel, by decide +kernel⟩
  have hb : b.write = .ok "Explode(threshold=-3, cap=2)" :=
    Numeral.publish_eq_ok_iff.2 ⟨by decide +kernel, by decide +kernel⟩
  have hbody : ∀ (s : String) (o : Options), o.recordNumbers.all Numeral.writable = true →
      ∃ t, Report.body (.text s) (some o) = .ok t := by
    intro s o ho
    have hrecord : Numeral.publish o.recordNumbers o.record = .ok o.record :=
      Numeral.publish_eq_ok_iff.2 ⟨ho, rfl⟩
    refine ⟨_, exceptBind_eq_ok_iff.2 ⟨s, rfl, exceptBind_eq_ok_iff.2 ⟨_, hrecord, rfl⟩⟩⟩
  obtain ⟨t, ht⟩ := hbody "d6" o (by decide +kernel)
  obtain ⟨t', ht'⟩ := hbody "d6\n    Options: Options()" {} (by decide +kernel)
  obtain ⟨hrecords, hreports⟩ := same_iff_write_eq
  refine ⟨ha, hb, ?_, t, t', ht, ht', fun heq => ?_⟩
  · rw [← Bool.not_eq_true, hrecords ha hb]
    decide
  · exact absurd ((hreports ht ht').1 heq).2 (by decide)

end DiceRoller
