/-
# The module of a file of the project

The path of a file is joined from the root of the project and a path inside it.
The module of the file is that path again, without its ending, as long as the
root, with a slash after it, is found at the front only: any other occurrence is
removed as well, and the text gets shorter (`Path.length_removeAll_lt`). At the
front it is found unless the root ends with a slash itself. Then nothing that
might be removed has the right length, since only whole occurrences are
(`Path.exists_length_removeAll`).

Key theorems: `Path.removeAll_of_front`, `Path.removeAll_of_not_infix`,
`Path.exists_length_removeAll`, `Path.length_removeAll_lt`,
`Path.moduleOf_join_eq_iff`.
-/
import DiceRoller.Text.Path
import Mathlib.Data.List.Infix

namespace DiceRoller
namespace Path

/-! ### Removing a pattern -/

section Remove

variable {pattern s : List Char} {c : Char}

/-- Characters that belong to an occurrence are passed over. -/
theorem removeAllFrom_eq_drop (pattern : List Char) (n : Nat) (s : List Char) :
    removeAllFrom pattern n s = removeAll pattern (s.drop n) := by
  induction n generalizing s with
  | zero => rfl
  | succ n ih =>
    cases s with
    | nil => rfl
    | cons c s => exact ih s

theorem removeAll_of_front (hne : pattern ≠ []) (h : pattern <+: s) :
    removeAll pattern s = removeAll pattern (s.drop pattern.length) := by
  cases s with
  | nil => exact absurd (List.prefix_nil.1 h) hne
  | cons c s =>
    have hfirst : removeAll pattern (c :: s) = removeAllFrom pattern (pattern.length - 1) s :=
      if_pos (List.isPrefixOf_iff_prefix.2 h)
    obtain ⟨_, _, rfl⟩ := List.exists_cons_of_ne_nil hne
    rw [hfirst, removeAllFrom_eq_drop]
    rfl

theorem removeAll_of_not_front (h : ¬ pattern <+: c :: s) :
    removeAll pattern (c :: s) = c :: removeAll pattern s :=
  if_neg fun hprefix => h (List.isPrefixOf_iff_prefix.1 hprefix)

/-- What is removed are whole occurrences. -/
theorem exists_length_removeAll (hne : pattern ≠ []) (s : List Char) :
    ∃ k, s.length = (removeAll pattern s).length + k * pattern.length := by
  induction hlen : s.length using Nat.strong_induction_on generalizing s with
  | _ n ih =>
    subst hlen
    cases s with
    | nil => exact ⟨0, by rw [Nat.zero_mul]; rfl⟩
    | cons c s =>
      by_cases h : pattern <+: c :: s
      · have hle := h.length_le
        have hpos := List.length_pos_of_ne_nil hne
        obtain ⟨k, hk⟩ := ih _ (by rw [List.length_drop]; omega) ((c :: s).drop pattern.length) rfl
        refine ⟨k + 1, ?_⟩
        rw [removeAll_of_front hne h, Nat.succ_mul, ← Nat.add_assoc, ← hk, List.length_drop]
        omega
      · obtain ⟨k, hk⟩ := ih _ (Nat.lt_succ_self _) s rfl
        refine ⟨k, ?_⟩
        rw [removeAll_of_not_front h, List.length_cons, List.length_cons, hk]
        omega

theorem removeAll_of_not_infix (h : ¬ pattern <:+: s) : removeAll pattern s = s := by
  induction s with
  | nil => rfl
  | cons c s ih =>
    obtain ⟨hfront, hrest⟩ := not_or.1 (mt List.infix_cons_iff.2 h)
    rw [removeAll_of_not_front hfront, ih hrest]

theorem length_removeAll_lt (hne : pattern ≠ []) (h : pattern <:+: s) :
    (removeAll pattern s).length < s.length := by
  induction s with
  | nil => exact absurd (List.infix_nil.1 h) hne
  | cons c s ih =>
    by_cases hfront : pattern <+: c :: s
    · have hpos := List.length_pos_of_ne_nil hne
      have hle := hfront.length_le
      obtain ⟨k, hk⟩ := exists_length_removeAll hne ((c :: s).drop pattern.length)
      rw [removeAll_of_front hne hfront]
      rw [List.length_drop] at hk
      omega
    · rw [removeAll_of_not_front hfront, List.length_cons, List.length_cons]
      exact Nat.succ_lt_succ (ih ((List.infix_cons_iff.1 h).resolve_left hfront))

end Remove

/-! ### The module of a file -/

variable {root inner path : String}

/-- A text that ends with a slash does not reach into the ending of a file's
name. -/
theorem infix_ending_iff {s : List Char} :
    s ++ ['/'] <:+: inner.toList ++ ".py".toList ↔ s ++ ['/'] <:+: inner.toList := by
  have hslash : '/' ∉ ".py".toList := by decide
  constructor
  · intro h
    rcases List.infix_append_iff.1 h with h | h | ⟨front, back, heq, hfront, hback⟩
    · exact h
    · exact absurd (h.subset (by simp)) hslash
    · rcases List.eq_nil_or_concat back with rfl | ⟨back, c, rfl⟩
      · rw [List.append_nil] at heq
        exact heq ▸ hfront.isInfix
      · rw [List.concat_eq_append, ← List.append_assoc] at heq
        obtain rfl : '/' = c := by simpa using (List.append_inj' heq rfl).2
        exact absurd (hback.subset (by simp)) hslash
  · exact fun h => h.trans (List.infix_append' [] _ _)

/-- A path inside the project is put behind the root, with a slash between them
unless there is one. -/
theorem toList_join (hroot : root ≠ "") (hne : inner ≠ "")
    (hinner : inner.toList.head? ≠ some '/') :
    (join root [inner ++ ".py"]).toList = root.toList ++
      (if root.toList.getLast? = some '/' then [] else ['/']) ++
        (inner.toList ++ ".py".toList) := by
  have hhead : (inner ++ ".py").toList.head? ≠ some '/' := by
    rw [String.toList_append, List.head?_append_of_ne_nil _ (by simpa using hne)]
    exact hinner
  rw [join_cons, join_nil, add, if_neg hhead]
  by_cases hend : root.toList.getLast? = some '/'
  · simp only [hend, true_or, if_true, String.toList_append, List.append_nil]
  · simp only [hend, hroot, or_self, if_false, String.toList_append]
    rfl

theorem length_of_moduleOf (hne : inner ≠ "") (h : moduleOf root path = inner) :
    (removeAll (root ++ "/").toList path.toList).length = inner.toList.length + 3 := by
  have hpos : 0 < inner.toList.length := List.length_pos_of_ne_nil (by simpa using hne)
  have hlen := congrArg (fun m => m.toList.length) h
  simp only [moduleOf, String.toList_ofList, List.length_take] at hlen
  omega

/-- **The module of a file.** The file at a path inside the project has this path
as its module exactly if the root does not end with a slash, and does not occur
in the path with a slash after it. -/
theorem moduleOf_join_eq_iff (hroot : root ≠ "") (hne : inner ≠ "")
    (hinner : inner.toList.head? ≠ some '/') :
    moduleOf root (join root [inner ++ ".py"]) = inner ↔
      root.toList.getLast? ≠ some '/' ∧ ¬ (root ++ "/").toList <:+: inner.toList := by
  have hpath := toList_join hroot hne hinner
  have hpattern : (root ++ "/").toList = root.toList ++ ['/'] := String.toList_append
  have hpattern_ne : (root ++ "/").toList ≠ [] := by rw [hpattern]; simp
  have hending : ".py".toList.length = 3 := rfl
  by_cases hend : root.toList.getLast? = some '/'
  · -- one slash only: as much as an occurrence, or several, cannot be missing
    refine iff_of_false (fun h => ?_) fun h => h.1 hend
    obtain ⟨k, hk⟩ := exists_length_removeAll hpattern_ne (join root [inner ++ ".py"]).toList
    have hpos : 0 < root.toList.length := List.length_pos_of_ne_nil (by simpa using hroot)
    rw [length_of_moduleOf hne h, hpath, if_pos hend, hpattern] at hk
    simp only [List.length_append, List.length_nil, List.length_singleton, hending] at hk
    cases k with
    | zero => omega
    | succ k => rw [Nat.succ_mul] at hk; omega
  · have hrest : removeAll (root ++ "/").toList (join root [inner ++ ".py"]).toList =
        removeAll (root ++ "/").toList (inner.toList ++ ".py".toList) := by
      rw [hpath, if_neg hend, ← hpattern, removeAll_of_front hpattern_ne (List.prefix_append _ _),
        List.drop_left]
    rw [and_iff_right hend]
    constructor
    · intro h hinfix
      have hlt := length_removeAll_lt hpattern_ne
        (hpattern ▸ infix_ending_iff.2 (hpattern ▸ hinfix))
      rw [← hrest, length_of_moduleOf hne h, List.length_append, hending] at hlt
      exact Nat.lt_irrefl _ hlt
    · intro hinfix
      rw [hpattern, ← infix_ending_iff, ← hpattern] at hinfix
      have hlen : (inner.toList ++ ".py".toList).length - 3 = inner.toList.length := by
        rw [List.length_append, hending, Nat.add_sub_cancel]
      rw [moduleOf, hrest, removeAll_of_not_infix hinfix, hlen, List.take_left,
        String.ofList_toList]

/-- A file two places below the root. -/
theorem moduleOf_join_eq_iff_roll :
    "/srv/dice" ≠ "" ∧ "dicexpr/roll" ≠ "" ∧ "dicexpr/roll".toList.head? ≠ some '/' ∧
      moduleOf "/srv/dice" (join "/srv/dice" ["dicexpr/roll.py"]) = "dicexpr/roll" := by
  have hroot : "/srv/dice" ≠ "" := by decide
  have hne : "dicexpr/roll" ≠ "" := by decide
  have hinner : "dicexpr/roll".toList.head? ≠ some '/' := by decide
  exact ⟨hroot, hne, hinner, (moduleOf_join_eq_iff hroot hne hinner).2 (by decide)⟩

/-- A path in which the root occurs once more loses it there too. -/
theorem not_moduleOf_of_root_inside :
    "a/p/b" ≠ "" ∧ "a/p/b".toList.head? ≠ some '/' ∧
      moduleOf "/p" (join "/p" ["a/p/b.py"]) = "ab" ∧
      moduleOf "/p" (join "/p" ["a/p/b.py"]) ≠ "a/p/b" := by
  decide

end Path
end DiceRoller
