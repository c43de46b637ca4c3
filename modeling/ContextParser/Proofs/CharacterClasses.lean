import ContextParser.Text.Alphanumeric
import ContextParser.Text.Whitespace

/-!
# Whitespace is apart from letters and digits

No character is both whitespace and a letter or digit. The tables say so range by range: every range
of the one ends before a range of the other starts, or the other way round.
-/

set_option autoImplicit false

namespace ContextParser.Text

/-- A number that is found in a table lies in one of its ranges. -/
theorem exists_mem_of_inRanges {ranges : List (Nat × Nat)} {n : Nat}
    (h : inRanges ranges n = true) : ∃ range ∈ ranges, range.1 ≤ n ∧ n ≤ range.2 := by
  fun_induction inRanges ranges n with
  | case1 => simp at h
  | case2 => simp at h
  | case3 first last ranges n hfirst hlast =>
    exact ⟨(first, last), List.mem_cons_self, Nat.not_lt.1 hfirst, hlast⟩
  | case4 first last ranges n hfirst hlast ih =>
    obtain ⟨range, hmem, hrange⟩ := ih h
    exact ⟨range, List.mem_cons_of_mem _ hmem, hrange⟩

/-- No range of one table overlaps a range of another. -/
def Apart (ranges others : List (Nat × Nat)) : Prop :=
  ∀ range ∈ ranges, ∀ other ∈ others, range.2 < other.1 ∨ other.2 < range.1

instance (ranges others : List (Nat × Nat)) : Decidable (Apart ranges others) :=
  inferInstanceAs (Decidable (∀ range ∈ ranges, ∀ other ∈ others, _ ∨ _))

/-- A number in one of two tables that are apart is not in the other. -/
theorem Apart.inRanges_eq_false {ranges others : List (Nat × Nat)} (h : Apart ranges others)
    {n : Nat} (hn : inRanges ranges n = true) : inRanges others n = false := by
  rw [Bool.eq_false_iff]
  intro hother
  obtain ⟨range, hmem, hfirst, hlast⟩ := exists_mem_of_inRanges hn
  obtain ⟨other, hmem', hfirst', hlast'⟩ := exists_mem_of_inRanges hother
  have := h range hmem other hmem'
  omega

/-- No range of whitespace overlaps a range of letters. -/
theorem apart_whitespace_alphabetic : Apart whitespaceRanges alphabeticRanges := by
  decide +kernel

/-- No range of whitespace overlaps a range of digits. -/
theorem apart_whitespace_numeric : Apart whitespaceRanges numericRanges := by
  decide +kernel

/-- Whitespace is neither a letter nor a digit. -/
theorem isAlphanumeric_of_isWhitespace {c : Char} (h : isWhitespace c = true) :
    isAlphanumeric c = false := by
  rw [isAlphanumeric, isAlphabetic, apart_whitespace_alphabetic.inRanges_eq_false h,
    apart_whitespace_numeric.inRanges_eq_false h]
  rfl

/-- A letter is no whitespace. -/
theorem isWhitespace_of_isAlphabetic {c : Char} (h : isAlphabetic c = true) :
    isWhitespace c = false := by
  rw [Bool.eq_false_iff]
  intro hspace
  have hnot := isAlphanumeric_of_isWhitespace hspace
  rw [isAlphanumeric_of_isAlphabetic h] at hnot
  exact Bool.noConfusion hnot

end ContextParser.Text
