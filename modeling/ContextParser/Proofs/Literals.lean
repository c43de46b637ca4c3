import ContextParser.Proofs.Readings
import ContextParser.Proofs.WholeTexts

/-!
# Fixed texts

A fixed text is taken where it comes next, and moves the cursor by its own bytes. The texts that
come behind it are then what remains, whatever characters the two are made of. So two fixed texts in
sequence are taken exactly where the two joined are taken, and end in the same state.

A run on a whole text has three ends, told apart by where the fixed text stands to the whole: they
are the same, or one goes on where the other ends, or they part before that
(`Parser.run_literal_cases`). All this is put together in `Parser.literals_take_prefixes`.
-/

set_option autoImplicit false

namespace ContextParser.Parser

variable {C α : Type} {a b text : String} {s : State C}

/-! ## In the middle of a text -/

/-- A parser that reads nothing but certain characters, with one value for them. -/
theorem Reads.fixed_success_iff {p : Parser C α} {cs : List Char} {v : α}
    (hp : Reads p fun c front _ value d => (front = cs ∧ value = v) ∧ d = c) (hs : s.WellFormed)
    {r : Success C α} :
    p s = .success r ↔ cs <+: s.remaining ∧ r = { state := s.skip cs, value := v } := by
  rw [hp.success_iff hs]
  constructor
  · rintro ⟨_, back, _, _, hremaining, ⟨⟨rfl, rfl⟩, rfl⟩, rfl⟩
    exact ⟨⟨back, hremaining.symm⟩, rfl⟩
  · rintro ⟨⟨back, hback⟩, rfl⟩
    exact ⟨cs, back, v, s.context, hback.symm, ⟨⟨rfl, rfl⟩, rfl⟩, rfl⟩

/-- Two fixed texts in sequence read the two joined. -/
theorem reads_both_literal (a b : String) :
    Reads (both (literal a) (literal b) : Parser C (String × String)) fun c front _ value d =>
      (front = (a ++ b).toList ∧ value = (a, b)) ∧ d = c := by
  refine ((reads_literal a).zipWith (reads_literal b) Prod.mk).congr ?_
  intro c front back value d
  rw [String.toList_append]
  constructor
  · rintro ⟨_, _, _, _, _, rfl, ⟨⟨rfl, rfl⟩, rfl⟩, ⟨⟨rfl, rfl⟩, rfl⟩, rfl⟩
    exact ⟨⟨rfl, rfl⟩, rfl⟩
  · rintro ⟨⟨rfl, rfl⟩, rfl⟩
    exact ⟨a.toList, b.toList, a, b, d, rfl, ⟨⟨rfl, rfl⟩, rfl⟩, ⟨⟨rfl, rfl⟩, rfl⟩, rfl⟩

/-! ## On a whole text -/

/-- A text that goes on behind a fixed text is given up where that ends. -/
theorem run_literal_of_append {back : List Char} (h : text.toList = a.toList ++ back) :
    (literal a).run text =
      if back = [] then .success a
      else
        .failure { kind := .trailingInput, message := Failure.endExpected,
                   position := Position.after a.toList } := by
  have hs : (State.start text ()).WellFormed := State.wellFormed_start text ()
  have hremaining : (State.start text ()).remaining = a.toList ++ back := by
    rw [State.remaining_start, h]
  have hs' := State.wellFormed_skip hs hremaining
  have hend : ((State.start text ()).skip a.toList).isAtEnd = true ↔ back = [] := by
    rw [State.isAtEnd_iff hs', State.remaining_skip hs hremaining]
  have hposition : ((State.start text ()).skip a.toList).position = Position.after a.toList := by
    rw [State.position_of_wellFormed hs', State.consumed_skip hs hremaining, State.consumed_start,
      List.nil_append]
  rw [run_of_success (literal_of_append hs hremaining)]
  simp only [hend, Failure.toParseError, Failure.trailing, Failure.position, hposition]

/-- A text that does not start with a fixed text is given up at once. -/
theorem run_literal_of_not_starting (h : ¬a.toList <+: text.toList) :
    (literal a).run text =
      .failure { kind := .mismatch, message := "Expected \"" ++ a ++ "\"",
                 position := Position.after [] } := by
  have hs : (State.start text ()).WellFormed := State.wellFormed_start text ()
  have hposition : (State.start text ()).position = Position.after [] := by
    rw [State.position_of_wellFormed hs, State.consumed_start]
  rw [← State.remaining_start text ()] at h
  rw [run_of_failure (literal_of_not_starting hs h)]
  simp only [Failure.toParseError, Failure.mismatch, Failure.position, hposition]

/-- A run of a fixed text accepts that text, reports what follows it, or finds that it is
missing. -/
theorem run_literal_cases (a text : String) :
    (text = a ∧ (literal a).run text = .success a) ∨
    ((a.toList <+: text.toList ∧ text ≠ a) ∧
      (literal a).run text =
        .failure { kind := .trailingInput, message := Failure.endExpected,
                   position := Position.after a.toList }) ∨
    (¬a.toList <+: text.toList ∧
      (literal a).run text =
        .failure { kind := .mismatch, message := "Expected \"" ++ a ++ "\"",
                   position := Position.after [] }) := by
  by_cases hstarts : a.toList <+: text.toList
  · obtain ⟨back, hback⟩ := hstarts
    have hrun := run_literal_of_append hback.symm
    by_cases hnothing : back = []
    · rw [if_pos hnothing] at hrun
      rw [hnothing, List.append_nil, String.toList_inj] at hback
      exact .inl ⟨hback.symm, hrun⟩
    · have hne : text ≠ a := by
        rintro rfl
        exact hnothing (List.append_right_eq_self.1 hback)
      rw [if_neg hnothing] at hrun
      exact .inr (.inl ⟨⟨⟨back, hback⟩, hne⟩, hrun⟩)
  · exact .inr (.inr ⟨hstarts, run_literal_of_not_starting hstarts⟩)

/-- A fixed text is taken exactly where the remaining characters start with it. The cursor moves by
its bytes, and text and context stay; everywhere else it fails in the state in which it was started.
Two of them joined are taken exactly where the one and then the other is taken, and lead to the same
state. On a whole text there is a success exactly if the two are the same, trailing input behind the
fixed text exactly if the whole starts with it and goes on, and a mismatch at the start in all other
cases. -/
theorem literals_take_prefixes (a b : String) (hs : s.WellFormed) :
    (∀ r, literal a s = .success r ↔ a.toList <+: s.remaining ∧
      r = { state := { text := s.text, index := s.index + Text.byteLength a.toList,
                       context := s.context },
            value := a }) ∧
    (¬a.toList <+: s.remaining →
      literal a s = .failure (.mismatch ("Expected \"" ++ a ++ "\"") s)) ∧
    ((∃ r, literal (a ++ b) s = .success r) ↔ ∃ r, both (literal a) (literal b) s = .success r) ∧
    (∀ r r', literal (a ++ b) s = .success r → both (literal a) (literal b) s = .success r' →
      r.state = r'.state ∧ r.value = a ++ b ∧ r'.value = (a, b)) ∧
    ∀ text,
      ((literal a).run text = .success a ↔ text = a) ∧
      ((∃ err, (literal a).run text = .failure err ∧ err.kind = .trailingInput ∧
          err.position.offset = Text.byteLength a.toList) ↔
        a.toList <+: text.toList ∧ text ≠ a) ∧
      ((∃ err, (literal a).run text = .failure err ∧ err.kind = .mismatch ∧
          err.position.offset = 0) ↔
        ¬a.toList <+: text.toList) := by
  have hjoined {r : Success C String} := (reads_literal (a ++ b)).fixed_success_iff hs (r := r)
  have hboth {r : Success C (String × String)} :=
    (reads_both_literal a b).fixed_success_iff hs (r := r)
  refine ⟨fun r => (reads_literal a).fixed_success_iff hs, literal_of_not_starting hs, ?_, ?_, ?_⟩
  · constructor
    · rintro ⟨r, hr⟩
      exact ⟨_, hboth.2 ⟨(hjoined.1 hr).1, rfl⟩⟩
    · rintro ⟨r, hr⟩
      exact ⟨_, hjoined.2 ⟨(hboth.1 hr).1, rfl⟩⟩
  · intro r r' hr hr'
    obtain ⟨-, rfl⟩ := hjoined.1 hr
    obtain ⟨-, rfl⟩ := hboth.1 hr'
    exact ⟨rfl, rfl, rfl⟩
  · intro text
    obtain ⟨rfl, hrun⟩ | ⟨⟨hstarts, hne⟩, hrun⟩ | ⟨hstarts, hrun⟩ := run_literal_cases a text
    · simp [hrun]
    · simp [hrun, hstarts, hne, Position.after]
    · have hne : text ≠ a := by
        rintro rfl
        exact hstarts (List.prefix_refl _)
      simp [hrun, hstarts, hne, Position.after]

/-- Two characters of two and three bytes, joined and in sequence, behind a letter; and the first of
them on a text that is both. -/
theorem literals_take_prefixes_accents :
    literal ("é" ++ "€") { text := "aé€b", index := 1, context := 7 } =
      .success { state := { text := "aé€b", index := 6, context := 7 }, value := "é€" } ∧
    (∃ r, both (literal "é") (literal "€") { text := "aé€b", index := 1, context := 7 } =
      .success r ∧ r.state = { text := "aé€b", index := 6, context := 7 }) ∧
    ∃ err, (literal "é").run "é€" = .failure err ∧ err.kind = .trailingInput ∧
      err.position.offset = 2 := by
  have hs : ({ text := "aé€b", index := 1, context := 7 } : State Nat).WellFormed := by decide
  have hrun : literal ("é" ++ "€") { text := "aé€b", index := 1, context := 7 } =
      .success { state := { text := "aé€b", index := 6, context := 7 }, value := "é€" } := by
    decide +kernel
  obtain ⟨-, -, hsequence, hsame, hwhole⟩ := literals_take_prefixes "é" "€" hs
  obtain ⟨r, hr⟩ := hsequence.1 ⟨_, hrun⟩
  obtain ⟨hstate, -, -⟩ := hsame _ _ hrun hr
  exact ⟨hrun, ⟨r, hr, hstate.symm⟩, (hwhole "é€").2.1.2 ⟨by decide, by decide⟩⟩

end ContextParser.Parser
