import Mathlib.Data.List.Induction
import Mathlib.Data.List.TakeWhile
import Mathlib.Data.Prod.Lex
import Mathlib.Order.Monotone.Basic
import ContextParser.Proofs.Cursor

/-!
# Counting lines and columns

A position is found by looking back from it: for the line feeds before it, and for the characters
since the last of these. The same comes of reading forward from the start of the text and counting
along, one character after the other (`Position.place_after`). Each character leads to a later
place, be it on the same line or on the next one. So places are in the order of their offsets, and
no two offsets of a text have the same place (`Position.strictMonoOn_place`).
-/

set_option autoImplicit false

namespace ContextParser.Position

/-- The line and the column of a position. -/
def place (position : Position) : Nat × Nat :=
  (position.line, position.column)

/-- The line and the column behind one more character. -/
def nextPlace (p : Nat × Nat) (c : Char) : Nat × Nat :=
  if c = '\n' then (p.1 + 1, 1) else (p.1, p.2 + 1)

/-! ## Forward and back -/

/-- What is seen in looking back changes with one more character as it does in counting along. -/
theorem place_after_concat (front : List Char) (c : Char) :
    (after (front ++ [c])).place = nextPlace (after front).place c := by
  by_cases hc : c = '\n'
  · simp [place, after, nextPlace, hc]
  · simp [place, after, nextPlace, hc]

/-- The induction is from the end, where the last character is. -/
theorem place_after (front : List Char) : (after front).place = front.foldl nextPlace (1, 1) := by
  induction front using List.reverseRecOn with
  | nil => rfl
  | append_singleton front c ih =>
    rw [place_after_concat, ih, List.foldl_append, List.foldl_cons, List.foldl_nil]

/-- As long as there is no line feed, a place is told by the number of characters before it. -/
theorem after_of_not_mem {front : List Char} (h : '\n' ∉ front) :
    after front = { offset := Text.byteLength front, line := 1, column := front.length + 1 } := by
  have hline : ∀ c ∈ front.reverse, decide (c ≠ '\n') = true := by
    intro c hc
    exact decide_eq_true fun heq => h (heq ▸ List.mem_reverse.1 hc)
  rw [after, List.count_eq_zero_of_not_mem h, List.takeWhile_eq_self_iff.2 hline,
    List.length_reverse]

/-! ## The order of places -/

/-- Every character leads to a later place. -/
theorem lt_nextPlace (p : Nat × Nat) (c : Char) : toLex p < toLex (nextPlace p c) := by
  rw [Prod.Lex.toLex_lt_toLex, nextPlace]
  split
  · exact .inl (Nat.lt_succ_self p.1)
  · exact .inr ⟨rfl, Nat.lt_succ_self p.2⟩

/-- Any characters lead to the same place or a later one. -/
theorem le_foldl_nextPlace (p : Nat × Nat) (middle : List Char) :
    toLex p ≤ toLex (middle.foldl nextPlace p) := by
  induction middle generalizing p with
  | nil => exact le_refl _
  | cons c cs ih => exact (lt_nextPlace p c).le.trans (ih (nextPlace p c))

/-- One character or more lead to a later place. -/
theorem lt_foldl_nextPlace (p : Nat × Nat) {middle : List Char} (hmiddle : middle ≠ []) :
    toLex p < toLex (middle.foldl nextPlace p) := by
  obtain ⟨c, cs, rfl⟩ := List.exists_cons_of_ne_nil hmiddle
  exact (lt_nextPlace p c).trans_le (le_foldl_nextPlace (nextPlace p c) cs)

/-- An offset at a boundary has the place that is counted up to it. -/
theorem place_locate {text : String} {front back : List Char} (h : text.toList = front ++ back) :
    (locate text (Text.byteLength front)).place = front.foldl nextPlace (1, 1) := by
  rw [locate_of_splitAt? (Text.splitAt?_eq_some_iff.2 ⟨h, rfl⟩), place_after]

/-- Of two boundaries of a text, the one with the larger offset has the later place. -/
theorem strictMonoOn_place (text : String) :
    StrictMonoOn (fun offset => toLex (locate text offset).place)
      {offset | Text.isBoundary offset text.toList = true} := by
  intro a ha b hb hlt
  obtain ⟨front, back, hsplit, rfl⟩ := Text.isBoundary_iff.1 ha
  obtain ⟨front', back', hsplit', rfl⟩ := Text.isBoundary_iff.1 hb
  obtain ⟨middle, rfl⟩ :=
    Text.exists_append_of_byteLength_le (hsplit.symm.trans hsplit') (Nat.le_of_lt hlt)
  have hmiddle : middle ≠ [] := by
    rintro rfl
    rw [List.append_nil] at hlt
    exact Nat.lt_irrefl _ hlt
  show toLex (locate text _).place < toLex (locate text _).place
  rw [place_locate hsplit, place_locate hsplit', List.foldl_append]
  exact lt_foldl_nextPlace _ hmiddle

/-- At every boundary of a text the cuts that give the position succeed, and the position has the
offset that was asked for. Its line and column are counted over the characters before it: from line
1 and column 1, a line feed leads to the first column of the next line, and any other character to
the next column. In the order of lines, and of columns within a line, the places of two boundaries
stand as their offsets do, and so do the places of two failures in one text. -/
theorem places_follow_offsets (text : String) :
    (∀ offset, Text.isBoundary offset text.toList = true →
      ∃ front back, text.toList = front ++ back ∧ Text.byteLength front = offset ∧
        ofOffset text offset = .ok (locate text offset) ∧
        (locate text offset).offset = offset ∧
        (locate text offset).place = front.foldl nextPlace (1, 1)) ∧
    (∀ a b, Text.isBoundary a text.toList = true → Text.isBoundary b text.toList = true →
      (toLex (locate text a).place < toLex (locate text b).place ↔ a < b) ∧
      ((locate text a).place = (locate text b).place ↔ a = b)) ∧
    ∀ (C : Type) (e e' : Failure C), e.state.WellFormed → e'.state.WellFormed →
      e.state.text = text → e'.state.text = text →
      (toLex e.position.place < toLex e'.position.place ↔ e.state.index < e'.state.index) ∧
      (e.position.place = e'.position.place ↔ e.state.index = e'.state.index) := by
  have horder : ∀ a b, Text.isBoundary a text.toList = true →
      Text.isBoundary b text.toList = true →
      (toLex (locate text a).place < toLex (locate text b).place ↔ a < b) ∧
      ((locate text a).place = (locate text b).place ↔ a = b) := by
    intro a b ha hb
    have hmono := strictMonoOn_place text
    exact ⟨hmono.lt_iff_lt ha hb, toLex.injective.eq_iff.symm.trans (hmono.eq_iff_eq ha hb)⟩
  refine ⟨?_, horder, ?_⟩
  · intro offset hoffset
    obtain ⟨front, back, hsplit, rfl⟩ := Text.isBoundary_iff.1 hoffset
    have hcut := Text.splitAt?_eq_some_iff.2 ⟨hsplit, rfl⟩
    refine ⟨front, back, hsplit, rfl, ?_, offset_locate text _, place_locate hsplit⟩
    rw [ofOffset_of_splitAt? hcut, locate_of_splitAt? hcut]
  · rintro C ⟨kind, message, s⟩ ⟨kind', message', s'⟩ hs hs' rfl hsame
    have hs'' : Text.isBoundary s'.index s.text.toList = true := by
      rw [← hsame]
      exact hs'
    have hposition : s'.position = locate s.text s'.index := by
      rw [State.position, hsame]
    simp only [Failure.position, hposition]
    exact horder s.index s'.index hs hs''

/-- A letter of two bytes takes one column, and the line feed behind it ends the line. -/
theorem places_follow_offsets_cedilla :
    (∃ front back, "ab\nçd\ne".toList = front ++ back ∧ Text.byteLength front = 5 ∧
      (locate "ab\nçd\ne" 5).place = front.foldl nextPlace (1, 1)) ∧
    (locate "ab\nçd\ne" 5).place = (2, 2) ∧ (locate "ab\nçd\ne" 7).place = (3, 1) ∧
    toLex (locate "ab\nçd\ne" 5).place < toLex (locate "ab\nçd\ne" 7).place := by
  obtain ⟨hcounted, horder, -⟩ := places_follow_offsets "ab\nçd\ne"
  have hinside : Text.isBoundary 5 "ab\nçd\ne".toList = true := by decide
  have hstart : Text.isBoundary 7 "ab\nçd\ne".toList = true := by decide
  obtain ⟨front, back, hsplit, hlength, -, -, hplace⟩ := hcounted 5 hinside
  exact ⟨⟨front, back, hsplit, hlength, hplace⟩, by decide, by decide,
    (horder 5 7 hinside hstart).1.2 (by decide)⟩

end ContextParser.Position
