/-
# Blanks: the characters that separate and mean nothing

Spaces, tabs, line ends and the separators of other scripts are blank. They
may stand anywhere in an expression and are dropped before it is read.

Key definitions: `Blank.isBlank`, `Blank.remove`, `Blank.trim`.
Key theorems: `Blank.isBlank_of_isWhitespace`, `Blank.remove_append`,
`Blank.isBlank_of_mem_remove`.
-/

namespace DiceRoller
namespace Blank

/-- The blank characters as closed ranges of code points. -/
def ranges : List (Nat × Nat) :=
  [(0x09, 0x0D), (0x1C, 0x20), (0x85, 0x85), (0xA0, 0xA0), (0x1680, 0x1680), (0x2000, 0x200A),
   (0x2028, 0x2029), (0x202F, 0x202F), (0x205F, 0x205F), (0x3000, 0x3000)]

/-- Whether a character is blank. -/
def isBlank (c : Char) : Bool := ranges.any fun r => r.1 ≤ c.toNat && c.toNat ≤ r.2

/-- The text without its blanks. -/
def remove (s : List Char) : List Char := s.filter fun c => !isBlank c

/-- The text without the characters of a class at its two ends. -/
def trimBy (p : Char → Bool) (s : List Char) : List Char :=
  ((s.dropWhile p).reverse.dropWhile p).reverse

/-- The text without the blanks at its two ends. -/
def trim (s : List Char) : List Char := trimBy isBlank s

/-- The white space of ASCII is blank. -/
theorem isBlank_of_isWhitespace {c : Char} (h : c.isWhitespace = true) : isBlank c = true := by
  simp only [Char.isWhitespace, Bool.or_eq_true, decide_eq_true_eq] at h
  rcases h with ((rfl | rfl) | rfl) | rfl <;> decide

@[simp] theorem remove_nil : remove [] = [] := rfl

theorem remove_cons_of_blank {c : Char} (h : isBlank c = true) (s : List Char) :
    remove (c :: s) = remove s := by
  simp [remove, h]

theorem remove_cons_of_not_blank {c : Char} (h : isBlank c = false) (s : List Char) :
    remove (c :: s) = c :: remove s := by
  simp [remove, h]

theorem remove_append (s t : List Char) : remove (s ++ t) = remove s ++ remove t := by
  simp [remove]

/-- Nothing blank is left. -/
theorem isBlank_of_mem_remove {s : List Char} {c : Char} (h : c ∈ remove s) :
    isBlank c = false := by
  simpa using (List.mem_filter.1 h).2

theorem remove_remove (s : List Char) : remove (remove s) = remove s := by
  simp [remove, List.filter_filter]

end Blank
end DiceRoller
