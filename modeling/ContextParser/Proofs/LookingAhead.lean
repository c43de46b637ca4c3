import ContextParser.Proofs.Cursor
import ContextParser.Proofs.Simulation.Grammar
import ContextParser.Proofs.Simulation.Leaves

/-!
# Parsers look ahead

What stands before the cursor makes no difference. Put a text behind another one and start at the
same place of it: the run is the same, only that all of its indices are larger by the bytes of what
now stands in front (`run_shift`).

One parser looks back nevertheless: a keyword ends with a word boundary, and whether there is one
depends on the character before it. That character is the last one of the keyword, which has just
been consumed, so it is the same in both texts. A keyword that is empty, or a word boundary that
stands alone, would look at what is in front of the start.
-/

set_option autoImplicit false

namespace ContextParser

/-- A slice is the same where the text stands behind another one. -/
theorem Text.slice?_append (front cs : List Char) (start stop : Nat) :
    slice? (byteLength front + start) (byteLength front + stop) (front ++ cs) =
      slice? start stop cs := by
  apply Option.ext
  intro middle
  rw [slice?_eq_some_iff, slice?_eq_some_iff]
  constructor
  · rintro ⟨left, back, hparts, hstart, hstop⟩
    have hle : byteLength front ≤ byteLength left := by omega
    obtain ⟨left, rfl⟩ := exists_append_of_byteLength_le
      (hparts.trans (List.append_assoc ..)) hle
    simp only [List.append_assoc, List.append_cancel_left_eq, byteLength_append] at *
    exact ⟨left, back, hparts, by omega, by omega⟩
  · rintro ⟨left, back, rfl, rfl, rfl⟩
    exact ⟨front ++ left, back, by simp, by simp, by simp⟩

namespace State

variable {C : Type} {s : State C}

/-- The same place of the text where it stands behind another one. -/
def shift (front : String) (s : State C) : State C :=
  { s with text := front ++ s.text, index := Text.byteLength front.toList + s.index }

/-- The context is the same behind another text. -/
@[simp] theorem context_shift (front : String) (s : State C) :
    (s.shift front).context = s.context := rfl

/-- The characters that are consumed are the same behind another text. -/
theorem shift_skip (front : String) (s : State C) (cs : List Char) :
    (s.skip cs).shift front = (s.shift front).skip cs := by
  simp [shift, skip, Nat.add_assoc]

/-- The cut behind another text has that text in front of what has been consumed. -/
theorem splitAt?_shift (hs : s.WellFormed) (front : String) :
    Text.splitAt? (s.shift front).index (s.shift front).text.toList =
      some (front.toList ++ s.consumed, s.remaining) := by
  rw [Text.splitAt?_eq_some_iff]
  simp only [shift, String.toList_append, Text.byteLength_append, byteLength_consumed hs,
    List.append_assoc, append_of_wellFormed hs, and_self]

/-- A cursor on a boundary is on one behind another text. -/
theorem wellFormed_shift (hs : s.WellFormed) (front : String) : (s.shift front).WellFormed := by
  rw [WellFormed, Text.isBoundary, splitAt?_shift hs]
  rfl

/-- What remains is the same behind another text. -/
theorem remaining_shift (hs : s.WellFormed) (front : String) :
    (s.shift front).remaining = s.remaining := by
  rw [remaining, splitAt?_shift hs]
  rfl

/-- The end is where it was behind another text. -/
theorem isAtEnd_shift (front : String) (s : State C) : (s.shift front).isAtEnd = s.isAtEnd := by
  rw [Bool.eq_iff_iff, isAtEnd, isAtEnd, beq_iff_eq, beq_iff_eq]
  simp only [shift, String.toList_append, Text.byteLength_append]
  omega

end State

/-- Behind characters that have just been consumed, what stands in front of them is out of sight. -/
theorem Parser.isAtWordBoundary_shift {C : Type} {s : State C} {cs back : List Char}
    (hs : s.WellFormed) (h : s.remaining = cs ++ back) (hcs : cs ≠ []) (front : String) :
    isAtWordBoundary ((s.shift front).skip cs) = isAtWordBoundary (s.skip cs) := by
  have hs' := State.wellFormed_shift hs front
  have h' := (State.remaining_shift hs front).trans h
  have hlast := List.getLast?_eq_some_getLast hcs
  rw [isAtWordBoundary, isAtWordBoundary, State.prev_skip hs h hlast, State.peek_skip hs h,
    State.prev_skip hs' h' hlast, State.peek_skip hs' h']

/-- The same outcome where the text stands behind another one. -/
def Outcome.shift {C α : Type} (front : String) (o : Outcome (Failure C) (Success C α)) :
    Outcome (Failure C) (Success C α) :=
  (o.map fun r => { r with state := r.state.shift front }).mapFailure
    fun e => { e with state := e.state.shift front }

variable {C : Type} {R : Type → Type} {α : Type}

namespace Simulation

/-- To do the same behind another text. -/
def shifted (C : Type) (front : String) : Simulation C C where
  states s t := s.WellFormed ∧ t = s.shift front
  failures e e' := e' = { e with state := e.state.shift front }
  excused _ := False
  index_eq_iff := by
    rintro s _ s' _ ⟨-, rfl⟩ ⟨-, rfl⟩
    simp [State.shift]
  slice?_eq := by
    rintro s _ s' _ ⟨-, rfl⟩ ⟨-, rfl⟩
    simp only [State.shift, String.toList_append, Text.slice?_append]
  failures_mismatch := by
    rintro s _ message ⟨-, rfl⟩
    rfl
  failures_exhausted := by
    rintro s _ messages ⟨-, rfl⟩
    rfl
  failures_label := by
    rintro e _ message rfl
    rfl
  message_eq := by
    rintro e _ rfl
    rfl

variable {front : String}

/-- Outcomes that agree are the same outcome, shifted. -/
theorem eq_shift_of_agree {o o' : Outcome (Failure C) (Success C α)}
    (h : (shifted C front).Agree o o') : o' = o.shift front := by
  cases h with
  | success value h =>
    obtain ⟨-, rfl⟩ := h
    rfl
  | failure h =>
    obtain rfl := h
    rfl
  | fault c => rfl
  | excused h => exact h.elim

/-- The characters ahead are the same, and so are the lengths that fit into them. -/
theorem seesAhead_shifted (C : Type) (front : String) : (shifted C front).SeesAhead where
  remaining_eq := by
    rintro s _ ⟨hs, rfl⟩
    exact (State.remaining_shift hs front).symm
  isAtEnd_eq := by
    rintro s _ ⟨-, rfl⟩
    exact (State.isAtEnd_shift front s).symm
  simulates_when := by
    rintro predicate predicate' message hpredicate s _ ⟨hs, rfl⟩
    rw [Parser.when_of_wellFormed hs, Parser.when_of_wellFormed (State.wellFormed_shift hs front),
      hpredicate s _ ⟨hs, rfl⟩, State.remaining_shift hs]
    cases predicate' (s.shift front) with
    | none => exact .failure rfl
    | some length =>
      dsimp only
      split
      · next hfits =>
        obtain ⟨cs, back, hremaining, rfl⟩ := Text.isBoundary_iff.1 hfits
        exact .success () ⟨State.wellFormed_skip hs hremaining, (State.shift_skip ..).symm⟩
      · exact .fault _

/-- A keyword that is not empty has its last character in both texts to look back at. -/
theorem shifted.simulates_keyword {text : String} (htext : text ≠ "") :
    (shifted C front).Simulates (Parser.keyword text) (Parser.keyword text) := by
  rintro s _ ⟨hs, rfl⟩
  have hs' := State.wellFormed_shift hs front
  have hsame := State.remaining_shift hs front
  -- a word boundary alone is not simulated, so it is looked at from behind the literal
  by_cases hstarts : text.toList <+: s.remaining
  · obtain ⟨back, hback⟩ := hstarts
    have hback' := hsame.trans hback.symm
    have hskip := State.wellFormed_skip hs hback.symm
    have hboundary := Parser.isAtWordBoundary_shift hs hback.symm (by simpa using htext) front
    rw [Parser.keyword_of_append hs hback.symm, Parser.keyword_of_append hs' hback', hboundary,
      ← State.shift_skip]
    split
    · exact .success text ⟨hskip, rfl⟩
    · exact .failure rfl
  · rw [Parser.keyword_of_not_starting hs hstarts,
      Parser.keyword_of_not_starting hs' (by rwa [hsame])]
    exact .failure rfl

end Simulation

/-- A node that looks at nothing in front of where it starts. Of what comes from outside, nobody
knows what it looks at. -/
def Grammar.LooksAhead : {α : Type} → Grammar C R α → Prop
  | _, .when _ _ => False
  | _, .custom _ => False
  | _, .wordBoundary => False
  | _, .keyword text => text ≠ ""
  | _, _ => True

/-- Every node that looks ahead only does the same behind another text. -/
theorem Simulation.covers_shifted (front : String) (g : Grammar C R α) (hg : g.LooksAhead) :
    (shifted C front).Covers g := by
  have hahead := seesAhead_shifted C front
  cases g with
  | when => exact hg.elim
  | custom => exact hg.elim
  | wordBoundary => exact hg.elim
  | endOfText => exact hahead.simulates_endOfText
  | context =>
    rintro s _ ⟨hs, rfl⟩
    exact .success s.context ⟨hs, rfl⟩
  | literal text => exact hahead.simulates_literal text
  | keyword text => exact shifted.simulates_keyword hg
  | whitespace => exact hahead.simulates_whitespace
  | whitespaceChar => exact hahead.simulates_whitespaceChar
  | charSpan initial following => exact hahead.simulates_charSpan initial following
  | mapWith grammar f =>
    rintro a s _ ⟨-, rfl⟩
    rfl
  | modifyContext grammar f =>
    rintro a s _ ⟨hs, rfl⟩
    exact ⟨hs, rfl⟩
  | _ => exact trivial

/-- Behind any other text, a run has the same outcome, and only the index is larger by the bytes of
what stands in front. -/
theorem run_shift {rules : Rules C R} (hrules : rules.Everywhere Grammar.LooksAhead)
    {g : Grammar C R α} (hg : g.Everywhere Grammar.LooksAhead) (budget : Budget)
    {text : String} {index : Nat} (hindex : Text.isBoundary index text.toList = true) (context : C)
    (front : String) :
    rules.run budget g
        { text := front ++ text, index := Text.byteLength front.toList + index, context } =
      (rules.run budget g { text, index, context }).shift front := by
  have hsim : (Simulation.shifted C front).Simulates (rules.run budget g) (rules.run budget g) :=
    Simulation.simulates_run (fun rule => (hrules rule).mono (Simulation.covers_shifted front))
      (.inl rfl) (.inl rfl) (hg.mono (Simulation.covers_shifted front))
  have hstates : (Simulation.shifted C front).states { text, index, context }
      { text := front ++ text, index := Text.byteLength front.toList + index, context } :=
    ⟨hindex, rfl⟩
  exact Simulation.eq_shift_of_agree (hsim _ _ hstates)

/-- The name of one rule. -/
inductive ConditionRule : Type → Type where
  | conditions : ConditionRule (List (String × String))

/-- A rule for keywords with whitespace between them, each together with the text it was read
from. -/
def conditionRules : Rules Unit ConditionRule where
  body | .conditions => .separatedBy (.withText (.keyword "if")) .whitespaceChar

/-- A keyword is read five bytes further on behind five bytes. The word after it goes on with a
digit and is not taken. -/
theorem run_shift_conditions :
    conditionRules.run { rounds := 2, depth := 1 } (.call .conditions)
        { text := "é→x if if9", index := 7, context := () } =
      .success
        { state := { text := "é→x if if9", index := 9, context := () },
          value := [("if", "if")] } := by
  have hrules : conditionRules.Everywhere Grammar.LooksAhead := by
    rintro _ ⟨⟩
    exact ⟨trivial, ⟨trivial, (by decide : "if" ≠ "")⟩, trivial⟩
  have hcall : (.call .conditions : Grammar Unit ConditionRule _).Everywhere Grammar.LooksAhead :=
    trivial
  have hindex : Text.isBoundary 2 "x if if9".toList = true := rfl
  have hrun : conditionRules.run { rounds := 2, depth := 1 } (.call .conditions)
        { text := "x if if9", index := 2, context := () } =
      .success
        { state := { text := "x if if9", index := 4, context := () },
          value := [("if", "if")] } := by
    decide +kernel
  have hshift := run_shift hrules hcall { rounds := 2, depth := 1 } hindex () "é→"
  rw [hrun] at hshift
  exact hshift

/-- The empty keyword looks back: it is found in front of a word, but not inside of it. -/
example :
    Parser.keyword "" (.start "a" ()) = .success { state := .start "a" (), value := "" } ∧
      Parser.keyword "" ((State.start "ba" ()).skip ['b']) =
        .failure (.mismatch "Expected word boundary" ((State.start "ba" ()).skip ['b'])) := by
  decide +kernel

end ContextParser
