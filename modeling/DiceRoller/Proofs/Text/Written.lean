/-
# What is written can be read back

A text that is put together from words with a separator between them can be
taken apart again if no word holds the separator (`splitOn_toList_intercalate`,
`intercalate_inj`). Numbers are words between most separators, since they hold
only digits and a minus sign (`minus_or_isDigit_of_mem_toString`), and a number
that may be written is read as itself (`Numeral.read_toString`). The other way
round, what is read is a number that may be written (`Numeral.writable_of_read`).

Key theorems: `splitOn_toList_intercalate`, `intercalate_inj`,
`minus_or_isDigit_of_mem_toString`, `Numeral.read_toString`,
`Numeral.writable_of_read`.
-/
import DiceRoller.Proofs.Text.Lowered
import DiceRoller.Text.Numeral
import Mathlib.Data.Nat.Digits.Defs
import Std.Data.String.ToInt

namespace DiceRoller

/-- Words joined by a separator that none of them holds are what stands between
the separators. -/
theorem splitOn_toList_intercalate (sep : Char) {ws : List String} (hws : ∀ w ∈ ws, sep ∉ w.toList)
    (hne : ws ≠ []) :
    List.splitOn sep (sep.toString.intercalate ws).toList = ws.map String.toList := by
  rw [String.toList_intercalate, Char.toString_eq_singleton, String.toList_singleton]
  refine List.splitOn_intercalate sep (fun l hl => ?_) (by simpa using hne)
  obtain ⟨w, hw, rfl⟩ := List.mem_map.1 hl
  exact hws w hw

/-- Such words are found again. -/
theorem intercalate_inj (sep : Char) {ws ws' : List String} (hws : ∀ w ∈ ws, sep ∉ w.toList)
    (hws' : ∀ w ∈ ws', sep ∉ w.toList) (hne : ws ≠ []) (hne' : ws' ≠ [])
    (h : sep.toString.intercalate ws = sep.toString.intercalate ws') : ws = ws' := by
  have hmap : ws.map String.toList = ws'.map String.toList := by
    rw [← splitOn_toList_intercalate sep hws hne, ← splitOn_toList_intercalate sep hws' hne', h]
  exact (List.map_inj_right fun _ _ => String.toList_inj.1).1 hmap

theorem not_mem_append {c : Char} {a b : String} (ha : c ∉ a.toList) (hb : c ∉ b.toList) :
    c ∉ (a ++ b).toList := by
  rw [String.toList_append, List.mem_append]
  exact not_or.2 ⟨ha, hb⟩

theorem not_mem_intercalate {c : Char} {sep : String} {ws : List String} (hsep : c ∉ sep.toList)
    (hws : ∀ w ∈ ws, c ∉ w.toList) : c ∉ (sep.intercalate ws).toList := by
  induction ws with
  | nil => exact List.not_mem_nil
  | cons w ws ih =>
    have hw := hws w List.mem_cons_self
    by_cases hne : ws = []
    · rwa [hne, String.intercalate_singleton]
    · rw [String.intercalate_cons_of_ne_nil hne]
      exact not_mem_append (not_mem_append hw hsep)
        (ih fun u hu => hws u (List.mem_cons_of_mem _ hu))

/-! ### What numbers are written with -/

theorem toList_toString_nat (n : Nat) : (toString n).toList = Nat.toDigits 10 n := by
  rw [Nat.toString_eq_ofList_toDigits, String.toList_ofList]

theorem isDigit_of_mem_toString {n : Nat} {c : Char} (hc : c ∈ (toString n).toList) :
    c.isDigit = true := by
  rw [toList_toString_nat] at hc
  exact Nat.isDigit_of_mem_toDigits (by decide) (by decide) hc

/-- A number is written as a natural number, with a minus sign in front of it
if it is negative. -/
theorem toString_int_cases (n : Int) : (∃ m : Nat, n = m ∧ toString n = toString m) ∨
    ∃ m : Nat, n = -(m : Int) ∧ toString n = "-" ++ toString m := by
  cases n with
  | ofNat m => exact .inl ⟨m, rfl, rfl⟩
  | negSucc m => exact .inr ⟨m + 1, rfl, rfl⟩

theorem minus_or_isDigit_of_mem_toString {n : Int} {c : Char} (hc : c ∈ (toString n).toList) :
    c = '-' ∨ c.isDigit = true := by
  rcases toString_int_cases n with ⟨m, -, hm⟩ | ⟨m, -, hm⟩ <;> rw [hm] at hc
  · exact .inr (isDigit_of_mem_toString hc)
  · rw [String.toList_append, List.mem_append] at hc
    rcases hc with hc | hc
    · exact .inl (by simpa using hc)
    · exact .inr (isDigit_of_mem_toString hc)

theorem not_mem_toString_nat {c : Char} (hc : c.isDigit = false) (n : Nat) :
    c ∉ (toString n).toList := by
  intro hmem
  rw [isDigit_of_mem_toString hmem] at hc
  cases hc

theorem not_mem_toString {c : Char} (hminus : c ≠ '-') (hc : c.isDigit = false) (n : Int) :
    c ∉ (toString n).toList := by
  intro hmem
  rcases minus_or_isDigit_of_mem_toString hmem with h | h
  · exact hminus h
  · rw [hc] at h
    cases h

/-- A word with any other character is no number. -/
theorem ne_toString {c : Char} {w : String} (hc : c ∈ w.toList) (hminus : c ≠ '-')
    (hdigit : c.isDigit = false) (n : Int) : w ≠ toString n := by
  rintro rfl
  exact not_mem_toString hminus hdigit n hc

theorem toString_int_ne_empty (n : Int) : toString n ≠ "" := by
  intro h
  rcases toString_int_cases n with ⟨m, -, hm⟩ | ⟨m, -, hm⟩ <;> rw [hm, ← String.toList_inj] at h
  · rw [toList_toString_nat] at h
    exact Nat.toDigits_ne_nil h
  · simp at h

theorem toString_nat_inj {m n : Nat} (h : toString m = toString n) : m = n := Nat.repr_injective h

theorem toString_int_inj {m n : Int} (h : toString m = toString n) : m = n := Int.repr_injective h

/-! ### Numbers read back -/

namespace Numeral

variable {s : List Char} {n : Nat}

theorem value?_of_isDigit {c : Char} (hc : c.isDigit = true) :
    Digit.value? c = some (c.toNat - '0'.toNat) := by
  obtain ⟨hlow, hhigh⟩ := isDigit_iff.1 hc
  rw [Digit.value?, Digit.zeros, List.find?_cons_of_pos]
  · rfl
  · simp only [Bool.and_eq_true, decide_eq_true_eq]
    omega

theorem digit_isDigit_of_isDigit {c : Char} (hc : c.isDigit = true) : Digit.isDigit c = true := by
  rw [Digit.isDigit, value?_of_isDigit hc]
  rfl

theorem ne_of_isDigit {c d : Char} (hc : c.isDigit = true) (hd : d.isDigit = false) : c ≠ d := by
  rintro rfl
  rw [hc] at hd
  cases hd

theorem wellSeparated_of_digits (hs : ∀ c ∈ s, c.isDigit = true) (hne : s ≠ []) :
    wellSeparated s = true := by
  induction s with
  | nil => exact absurd rfl hne
  | cons c s ih =>
    have hc := ne_of_isDigit (d := '_') (hs c List.mem_cons_self) (by decide)
    have htail : ∀ d ∈ s, d.isDigit = true := fun d hd => hs d (List.mem_cons_of_mem _ hd)
    cases s with
    | nil => simp [wellSeparated]
    | cons d s =>
      have hd := ne_of_isDigit (d := '_') (htail d List.mem_cons_self) (by decide)
      have hrest := ih htail (List.cons_ne_nil _ _)
      simpa [wellSeparated, hc, hd] using hrest

theorem valueOf_of_digits (hs : ∀ c ∈ s, c.isDigit = true) :
    valueOf s = Nat.ofDigitChars 10 s 0 := by
  have hvalues : s.filterMap Digit.value? = s.map fun c => c.toNat - '0'.toNat := by
    induction s with
    | nil => rfl
    | cons c s ih =>
      rw [List.filterMap_cons_some (value?_of_isDigit (hs c List.mem_cons_self)), List.map_cons,
        ih fun d hd => hs d (List.mem_cons_of_mem _ hd)]
  rw [valueOf, hvalues, List.foldl_map]
  rfl

/-- Digits alone, not too many of them, are a numeral. -/
theorem readUnsigned_of_digits {all : List Char} (hs : ∀ c ∈ s, c.isDigit = true) (hne : s ≠ [])
    (hlen : s.length ≤ digitLimit) : readUnsigned all s = .ok (Nat.ofDigitChars 10 s 0) := by
  have hrun : (s.takeWhile fun c => Digit.isDigit c || c == '_') = s := by
    rw [← List.append_nil s, List.takeWhile_append_of_pos, List.takeWhile_nil]
    intro c hc
    rw [digit_isDigit_of_isDigit (hs c hc), Bool.true_or]
  have hcount : s.countP Digit.isDigit = s.length :=
    List.countP_eq_length.2 fun c hc => digit_isDigit_of_isDigit (hs c hc)
  simp only [readUnsigned]
  rw [hrun, hcount, wellSeparated_of_digits hs hne, valueOf_of_digits hs]
  simp [Nat.not_lt.2 hlen]

theorem length_toString_le {limit : Nat} (hpos : 0 < limit) (hn : n < Nat.pow 10 limit) :
    (toString n).toList.length ≤ limit := by
  rw [toList_toString_nat]
  exact Nat.toDigits_length 10 n limit hpos hn

theorem readUnsigned_toString {all : List Char} (hn : writable n = true) :
    readUnsigned all (toString n).toList = .ok n := by
  have hne : (toString n).toList ≠ [] := by
    rw [toList_toString_nat]
    exact Nat.toDigits_ne_nil
  rw [writable, decide_eq_true_eq, Int.natAbs_natCast] at hn
  rw [readUnsigned_of_digits (fun c hc => isDigit_of_mem_toString hc) hne
    (length_toString_le (by decide) hn), toList_toString_nat, Nat.ofDigitChars_ten_toDigits]

/-- A text without padding is not trimmed. -/
theorem trimBy_of_not_padding {p : Char → Bool} (hs : ∀ c ∈ s, p c = false) :
    Blank.trimBy p s = s := by
  have hstay : ∀ l : List Char, (∀ c ∈ l, p c = false) → l.dropWhile p = l := by
    intro l hl
    cases l with
    | nil => rfl
    | cons c l => exact List.dropWhile_cons_of_neg (by rw [hl c List.mem_cons_self]; decide)
  rw [Blank.trimBy, hstay s hs, hstay, List.reverse_reverse]
  intro c hc
  exact hs c (List.mem_reverse.1 hc)

theorem isPadding_eq_false {c : Char} (hc : c = '-' ∨ c.isDigit = true) : isPadding c = false := by
  rcases hc with rfl | hc
  · decide
  · obtain ⟨hlow, hhigh⟩ := isDigit_iff.1 hc
    have hblank : Blank.isBlank c = false := by
      simp only [Blank.isBlank, Blank.ranges, List.any_cons, List.any_nil, Bool.or_eq_false_iff,
        Bool.and_eq_false_iff, decide_eq_false_iff_not, and_true]
      omega
    rw [isPadding, hblank, Bool.false_and]

/-- A number that may be written is read as itself. -/
theorem read_toString {n : Int} (hn : writable n = true) : read (toString n).toList = .ok n := by
  rw [read, trimBy_of_not_padding fun c hc =>
    isPadding_eq_false (minus_or_isDigit_of_mem_toString hc)]
  rcases toString_int_cases n with ⟨m, rfl, hm⟩ | ⟨m, rfl, hm⟩ <;> rw [hm]
  · -- the first character is a digit, so it is no sign
    have hdigit : ∀ {c : Char} {rest : List Char}, (toString m).toList = c :: rest →
        c.isDigit = true := by
      intro c rest h
      exact isDigit_of_mem_toString (n := m) (h ▸ List.mem_cons_self)
    split
    · next h => exact absurd (hdigit h) (by decide)
    · next h => exact absurd (hdigit h) (by decide)
    · rw [readUnsigned_toString hn]
      rfl
  · have hm : writable m = true := by
      rw [writable, Int.natAbs_neg] at hn
      exact hn
    rw [String.toList_append, show "-".toList = ['-'] from rfl]
    simp only [List.cons_append, List.nil_append, readUnsigned_toString hm]
    rfl

theorem read?_toString {n : Int} (hn : writable n = true) : read? (toString n).toList = some n := by
  rw [read?, read_toString hn]
  rfl

theorem read?_toString_nat (hn : writable n = true) : read? (toString n).toList = some (n : Int) := by
  have hint : toString (n : Int) = toString n := rfl
  rw [← hint, read?_toString hn]

/-! ### What is read may be written -/

/-- Digits that are put after a number make it as many digits longer. -/
theorem foldl_digits_lt {ds : List Nat} (hds : ∀ d ∈ ds, d < 10) (n : Nat) :
    ds.foldl (fun n d => 10 * n + d) n < (n + 1) * 10 ^ ds.length := by
  induction ds generalizing n with
  | nil => simp
  | cons d ds ih =>
    have hd := hds d List.mem_cons_self
    have hrest := ih (fun d h => hds d (List.mem_cons_of_mem _ h)) (10 * n + d)
    calc (d :: ds).foldl (fun n d => 10 * n + d) n < (10 * n + d + 1) * 10 ^ ds.length := hrest
      _ ≤ ((n + 1) * 10) * 10 ^ ds.length := Nat.mul_le_mul_right _ (by omega)
      _ = (n + 1) * 10 ^ (d :: ds).length := by rw [Nat.mul_assoc, List.length_cons, Nat.pow_succ']

/-- A run of so many digits, of whatever script, is below the power of ten. -/
theorem valueOf_lt {run : List Char} {limit : Nat} (h : run.countP Digit.isDigit ≤ limit) :
    valueOf run < Nat.pow 10 limit := by
  have hlength : (run.filterMap Digit.value?).length = run.countP Digit.isDigit := by
    rw [List.length_filterMap_eq_countP]
    rfl
  have hds : ∀ d ∈ run.filterMap Digit.value?, d < 10 := by
    intro d hd
    obtain ⟨c, -, hc⟩ := List.mem_filterMap.1 hd
    exact Digit.value?_lt_ten hc
  have hlt := foldl_digits_lt hds 0
  rw [hlength, Nat.zero_add, Nat.one_mul] at hlt
  exact Nat.lt_of_lt_of_le hlt (Nat.pow_le_pow_right (by decide) h)

theorem writable_of_readUnsigned {all : List Char} (h : readUnsigned all s = .ok n) :
    writable n = true := by
  unfold readUnsigned at h
  simp only at h
  split at h
  · cases h
  split at h
  · cases h
  · next hcount =>
    split at h
    · cases h
    · cases h
      rw [writable, decide_eq_true_eq, Int.natAbs_natCast]
      exact valueOf_lt (Nat.not_lt.1 hcount)

/-- A number that is read may be written. -/
theorem writable_of_read {n : Int} (h : read s = .ok n) : writable n = true := by
  have hsign : ∀ rest, ((readUnsigned s rest).map fun n => -(n : Int)) = .ok n ∨
      (readUnsigned s rest).map Int.ofNat = .ok n → writable n = true := by
    intro rest hmap
    cases hread : readUnsigned s rest with
    | error f => rw [hread] at hmap; rcases hmap with hmap | hmap <;> cases hmap
    | ok m =>
      have hm := writable_of_readUnsigned hread
      rw [writable, Int.natAbs_natCast] at hm
      rw [hread] at hmap
      rcases hmap with hmap | hmap <;> cases hmap
      · rw [writable, Int.natAbs_neg]
        exact hm
      · exact hm
  unfold read at h
  split at h
  · exact hsign _ (.inl h)
  · exact hsign _ (.inr h)
  · exact hsign _ (.inr h)

theorem writable_of_read? {n : Int} (h : read? s = some n) : writable n = true := by
  cases hread : read s with
  | error f =>
    rw [read?, hread] at h
    cases h
  | ok m =>
    rw [read?, hread] at h
    cases h
    exact writable_of_read hread

end Numeral
end DiceRoller
