/-
# The display of the rolls marks those that count

The rolls are displayed as a row of entries with commas between them, in which
the rolls dropped stand in parentheses. What is worth something is what is kept.
Both go by the values dropped: from the left, each roll takes one value dropped
off those that are left, and is dropped if there was one (`Hand.filter_mark`).

A reader of the display splits it at the commas (`Hand.entries`). Numbers are
written without commas and without parentheses, so the entries are those that
were written (`Hand.entries_annotated`), and each tells its roll and whether it
is dropped (`Hand.unbracketed_entry`, `Hand.isBracketed_entry`).

Key definitions: `Hand.entries`, `Hand.isBracketed`, `Hand.unbracketed`,
`Hand.Displayed`.
Key theorems: `Hand.filter_mark`, `Hand.entries_annotated`,
`Hand.publish_displayed`.
-/
import DiceRoller.Proofs.Hand.Unambiguous

namespace DiceRoller
namespace Hand

/-! ### Which rolls are marked -/

/-- Of the rolls of one value the leftmost are marked, as many as there are such
values to drop. -/
theorem filter_mark (rolls left : List Int) (v : Int) :
    (mark rolls left).filter (fun p => p.1 = v) =
      List.replicate (min (left.count v) (rolls.count v)) (v, true) ++
        List.replicate (rolls.count v - left.count v) (v, false) := by
  induction rolls generalizing left with
  | nil => simp [mark]
  | cons r rs ih =>
    unfold mark
    by_cases hr : r ∈ left
    · have hpos : 0 < left.count r := List.count_pos_iff.2 hr
      rw [if_pos (by simpa using hr)]
      by_cases e : r = v
      · subst e
        have hmin : min (left.count r) (rs.count r + 1) =
            min (left.count r - 1) (rs.count r) + 1 := by omega
        have hrest : rs.count r + 1 - left.count r = rs.count r - (left.count r - 1) := by omega
        rw [List.filter_cons_of_pos (by simp), ih, List.count_cons_self, List.count_erase_self, hmin,
          hrest, List.replicate_succ, List.cons_append]
      · rw [List.filter_cons_of_neg (by simpa using e), ih, List.count_cons_of_ne e,
          List.count_erase_of_ne (Ne.symm e)]
    · have hzero : left.count r = 0 := List.count_eq_zero.2 hr
      rw [if_neg (by simpa using hr)]
      by_cases e : r = v
      · subst e
        rw [List.filter_cons_of_pos (by simp), ih, List.count_cons_self, hzero]
        simp [List.replicate_succ]
      · rw [List.filter_cons_of_neg (by simpa using e), ih, List.count_cons_of_ne e]

/-! ### Reading the display -/

/-- What stands between the commas. -/
def entries (text : String) : List String :=
  if text = "" then [] else (text.toList.splitOn ',').map String.ofList

/-- Whether an entry stands in parentheses. -/
def isBracketed (e : String) : Bool := e.toList.head? == some '('

/-- The entry without parentheses. -/
def unbracketed (e : String) : String :=
  String.ofList (e.toList.filter fun c => c ≠ '(' ∧ c ≠ ')')

theorem isBracketed_toString (n : Int) : isBracketed (toString n) = false := by
  have hopen : '(' ∉ (toString n).toList := not_mem_toString (by decide) (by decide) n
  unfold isBracketed
  cases hc : (toString n).toList with
  | nil => rfl
  | cons c cs =>
    rw [hc] at hopen
    have hne : c ≠ '(' := fun h => hopen (h ▸ List.mem_cons_self)
    simpa using hne

theorem isBracketed_entry (p : Int × Bool) : isBracketed (entry p) = p.2 := by
  unfold entry
  split
  · next hp => simp [isBracketed, hp]
  · next hp => exact (isBracketed_toString p.1).trans (Bool.eq_false_of_not_eq_true hp).symm

theorem filter_toString (n : Int) :
    (toString n).toList.filter (fun c => c ≠ '(' ∧ c ≠ ')') = (toString n).toList := by
  rw [List.filter_eq_self]
  intro c hc
  have hopen : '(' ∉ (toString n).toList := not_mem_toString (by decide) (by decide) n
  have hclose : ')' ∉ (toString n).toList := not_mem_toString (by decide) (by decide) n
  simp only [decide_eq_true_eq]
  exact ⟨fun h => hopen (h ▸ hc), fun h => hclose (h ▸ hc)⟩

theorem unbracketed_entry (p : Int × Bool) : unbracketed (entry p) = toString p.1 := by
  have hopen : "(".toList = ['('] := rfl
  have hclose : ")".toList = [')'] := rfl
  unfold unbracketed entry
  split
  · rw [String.toList_append, String.toList_append, List.filter_append, List.filter_append,
      filter_toString, hopen, hclose]
    simp
  · rw [filter_toString, String.ofList_toList]

theorem entry_ne_empty (p : Int × Bool) : entry p ≠ "" := by
  intro h
  have hread := unbracketed_entry p
  rw [h] at hread
  exact toString_int_ne_empty p.1 hread.symm

/-- The entries read are those written. -/
theorem entries_annotated (h : Hand) : entries h.annotated = h.marked.map entry := by
  have hcomma : ∀ w ∈ h.marked.map entry, ',' ∉ w.toList := by
    intro w hw
    obtain ⟨p, -, rfl⟩ := List.mem_map.1 hw
    exact not_mem_entry (by decide) (by decide) (by decide) (by decide) p
  by_cases hnil : h.marked = []
  · simp [entries, annotated, hnil]
  · have hsplit : h.annotated.toList.splitOn ',' = (h.marked.map entry).map String.toList :=
      splitOn_toList_intercalate ',' hcomma (by simpa using hnil)
    have htext : h.annotated ≠ "" := by
      intro hempty
      obtain ⟨p, ps, hmarked⟩ := List.exists_cons_of_ne_nil hnil
      rw [hempty, hmarked] at hsplit
      have hfirst : "".toList = (entry p).toList := (List.cons.inj hsplit).1
      exact entry_ne_empty p (String.toList_inj.1 hfirst).symm
    rw [entries, if_neg htext, hsplit, List.map_map]
    simp [Function.comp_def]

/-! ### The display of a hand -/

/-- The text shows every roll in its place, leaves those kept as they are, and
puts those dropped in parentheses: of each value the leftmost ones, as many as
are dropped and were rolled. -/
structure Displayed (h : Hand) (text : String) : Prop where
  rolls_eq : (entries text).map unbracketed = h.rolls.map toString
  kept_eq : (entries text).filter (fun e => !isBracketed e) = h.kept.map toString
  leftmost : ∀ v, (entries text).filter (fun e => unbracketed e = toString v) =
    List.replicate (min (h.dropped.count v) (h.rolls.count v)) ("(" ++ toString v ++ ")") ++
      List.replicate (h.rolls.count v - h.dropped.count v) (toString v)

theorem displayed_annotated (h : Hand) : h.Displayed h.annotated where
  rolls_eq := by
    rw [entries_annotated, List.map_map, ← h.marked_fst, List.map_map]
    exact List.map_congr_left fun p _ => unbracketed_entry p
  kept_eq := by
    rw [entries_annotated, List.filter_map, kept, List.map_map]
    have hflags : ((fun e => !isBracketed e) ∘ entry) = fun p => !p.2 := by
      funext p
      simp [isBracketed_entry]
    rw [hflags]
    refine List.map_congr_left fun p hp => ?_
    have hkept : p.2 = false := by simpa using (List.mem_filter.1 hp).2
    simp [entry, hkept]
  leftmost v := by
    have hvalue : ((fun e => decide (unbracketed e = toString v)) ∘ entry) =
        fun p : Int × Bool => decide (p.1 = v) := by
      funext p
      simp only [Function.comp_apply, unbracketed_entry, decide_eq_decide]
      exact ⟨toString_int_inj, fun h => by rw [h]⟩
    rw [entries_annotated, List.filter_map, hvalue, h.marked_eq, filter_mark, List.map_append,
      List.map_replicate, List.map_replicate]
    rfl

/-- Rolls that may be written are displayed, whatever values are dropped, and
the display tells what is kept: the rolls that the values dropped leave. -/
theorem publish_displayed (h : Hand) (hw : ∀ r ∈ h.rolls, Numeral.writable r = true) :
    ∃ text, Numeral.publish h.annotatedNumbers h.annotated = .ok text ∧ h.Displayed text ∧
      h.kept = keep h.rolls h.dropped :=
  ⟨h.annotated, Numeral.publish_eq_ok_iff.2 ⟨List.all_eq_true.2 hw, rfl⟩, h.displayed_annotated,
    h.kept_eq⟩

/-- A value dropped twice, one dropped more often than it was rolled, and one that
was not rolled at all. -/
theorem publish_displayed_five :
    let h : Hand := { rolls := [3, -1, 3, 5, 3], dropped := [3, 5, 3, 5, 7] }
    ∃ text, Numeral.publish h.annotatedNumbers h.annotated = .ok text ∧ h.Displayed text ∧
      h.kept = [-1, 3] ∧ text = "(3),-1,(3),(5),3" := by
  intro h
  obtain ⟨text, htext, hdisplayed, hkept⟩ := publish_displayed h (by decide +kernel)
  obtain ⟨-, rfl⟩ := Numeral.publish_eq_ok_iff.1 htext
  refine ⟨_, htext, hdisplayed, hkept.trans (by decide), ?_⟩
  rw [annotated, h.marked_eq]
  decide +kernel

end Hand
end DiceRoller
