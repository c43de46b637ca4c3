import ContextParser.Proofs.CursorSafety

/-!
# Runs on whole texts

A run on a whole text asks for the end of the text in its own way: it looks at the state in which
the parser has stopped. The parser `endOfText` asks for the same in the way of all parsers. The two
agree (`wholeRuns_are_sequences`): a run on a whole text is a run of the parser with `endOfText`
behind it, except that stopping early is told from other mismatches by its kind.

No state can be made whose cursor is off a boundary, so this is asked of the states in which the
parser itself ends. It may otherwise do what it likes, even go on in another text.
-/

set_option autoImplicit false

namespace ContextParser.Parser

variable {C α : Type}

section

variable (p : Parser C α) (text : String) (context : C)

/-- The four ways in which a run on a whole text may end, and how the sequence ends in each. -/
theorem parseWith_cases
    (hp : ∀ r, p (.start text context) = .success r → r.state.WellFormed) :
    (∃ r, p (.start text context) = .success r ∧ p.parseWith text context = .success r ∧
      seqLeft p endOfText (.start text context) = .success r) ∨
    (∃ r, p (.start text context) = .success r ∧
      p.parseWith text context = .failure (.trailing r.state) ∧
      seqLeft p endOfText (.start text context) =
        .failure (.mismatch Failure.endExpected r.state)) ∨
    (∃ e, p (.start text context) = .failure e ∧ p.parseWith text context = .failure e ∧
      seqLeft p endOfText (.start text context) = .failure e) ∨
    ∃ c, p (.start text context) = .fault c ∧ p.parseWith text context = .fault c ∧
      seqLeft p endOfText (.start text context) = .fault c := by
  rw [parseWith, seqLeft_eq_zipWith, zipWith_apply]
  cases hrun : p (.start text context) with
  | failure e => exact .inr (.inr (.inl ⟨e, rfl, rfl, rfl⟩))
  | fault c => exact .inr (.inr (.inr ⟨c, rfl, rfl, rfl⟩))
  | success r =>
    simp only [Outcome.bind_success, endOfText_of_wellFormed (hp r hrun)]
    by_cases hend : r.state.isAtEnd = true
    · rw [if_pos hend, if_pos hend]
      exact .inl ⟨r, rfl, rfl, rfl⟩
    · rw [if_neg hend, if_neg hend]
      exact .inr (.inl ⟨r, rfl, rfl, rfl⟩)

/-- A run on a whole text succeeds, faults and fails where the parser with the end of the text
behind it does. -/
theorem parseWith_iff_sequence
    (hp : ∀ r, p (.start text context) = .success r → r.state.WellFormed) :
    (∀ r, p.parseWith text context = .success r ↔
      seqLeft p endOfText (.start text context) = .success r) ∧
    (∀ c, p.parseWith text context = .fault c ↔
      seqLeft p endOfText (.start text context) = .fault c) ∧
    ((∃ e, p.parseWith text context = .failure e) ↔
      ∃ e, seqLeft p endOfText (.start text context) = .failure e) := by
  obtain ⟨r, -, h, h'⟩ | ⟨r, -, h, h'⟩ | ⟨e, -, h, h'⟩ | ⟨c, -, h, h'⟩ :=
    parseWith_cases p text context hp
  all_goals
    rw [h, h']
    simp

/-- The error of a run is the failure of the whole text with its place in the text in the state's
stead. -/
theorem runWith_failure_iff {err : ParseError} :
    p.runWith text context = .failure err ↔
      ∃ e, p.parseWith text context = .failure e ∧ err = e.toParseError := by
  constructor
  · exact parseWith_of_runWith_failure
  · rintro ⟨e, h, rfl⟩
    rw [runWith, h]
    rfl

/-- A run for value and context has the faults of the run on the whole text. -/
theorem runWith_fault_iff {c : Fault} :
    p.runWith text context = .fault c ↔ p.parseWith text context = .fault c := by
  constructor
  · exact parseWith_of_runWith_fault
  · intro h
    rw [runWith, h]
    rfl

/-- A run for value and context yields both of them from the success on the whole text. -/
theorem runWith_success_iff {value : α} {final : C} :
    p.runWith text context = .success (value, final) ↔
      ∃ r, p.parseWith text context = .success r ∧ r.value = value ∧ r.state.context = final := by
  rw [runWith]
  cases p.parseWith text context with
  | success r => simp
  | failure e => simp
  | fault c => simp

/-- The failure of a run on a whole text is reported in a state that the parser has ended in. -/
theorem wellFormed_of_parseWith_failure
    (hp : ∀ t, (p (.start text context)).endState? = some t → t.WellFormed) {e : Failure C}
    (h : p.parseWith text context = .failure e) : e.state.WellFormed := by
  rw [parseWith] at h
  cases hrun : p (.start text context) with
  | success r =>
    have hr : r.state.WellFormed := hp _ (by rw [hrun]; rfl)
    rw [hrun, Outcome.bind_success] at h
    split at h
    · simp at h
    · obtain rfl := Outcome.failure.inj h
      exact hr
  | failure e' =>
    have he : e'.state.WellFormed := hp _ (by rw [hrun]; rfl)
    rw [hrun] at h
    obtain rfl := Outcome.failure.inj h
    exact he
  | fault c => simp [hrun] at h

end

/-- A run for the value only forgets the context of the run for both. -/
theorem run_eq_map_runWith (q : Parser Unit α) (text : String) :
    q.run text = (q.runWith text ()).map Prod.fst := by
  rw [run, runWith, parse]
  cases q.parseWith text () with
  | success r => rfl
  | failure e => rfl
  | fault c => rfl

/-- What a run makes of a success depends on whether the parser has come to the end. -/
theorem run_of_success {p : Parser Unit α} {text : String} {r : Success Unit α}
    (h : p (.start text ()) = .success r) :
    p.run text =
      if r.state.isAtEnd then .success r.value
      else .failure (Failure.trailing r.state).toParseError := by
  rw [run, parse, parseWith, h, Outcome.bind_success]
  split
  · rfl
  · rfl

/-- What a run makes of a failure is the error with its place. -/
theorem run_of_failure {p : Parser Unit α} {text : String} {e : Failure Unit}
    (h : p (.start text ()) = .failure e) : p.run text = .failure e.toParseError := by
  rw [run, parse, parseWith, h]
  rfl

/-- A run on a whole text is a run of the parser with the end of the text behind it. Both succeed
alike and end in the same faults. Both fail with the same message in the same state, and with the
same kind, but that the run calls trailing input what is a mismatch for the sequence; it does so
exactly if the parser itself has succeeded. A run for the value only yields it with the context of
the final state. Its errors have kind and message of the failure and the position of its state, and
are told in the same words. Without a context all this is the same with the context of type
`Unit`. -/
theorem wholeRuns_are_sequences (p : Parser C α) (text : String) (context : C)
    (hp : ∀ t, (p (.start text context)).endState? = some t → t.WellFormed) :
    (∀ r, p.parseWith text context = .success r ↔
      seqLeft p endOfText (.start text context) = .success r) ∧
    (∀ c, p.parseWith text context = .fault c ↔
      seqLeft p endOfText (.start text context) = .fault c) ∧
    ((∃ e, p.parseWith text context = .failure e) ↔
      ∃ e, seqLeft p endOfText (.start text context) = .failure e) ∧
    (∀ e e', p.parseWith text context = .failure e →
      seqLeft p endOfText (.start text context) = .failure e' →
        e.message = e'.message ∧ e.state = e'.state ∧
        (e.kind ≠ e'.kind ↔ ∃ r, p (.start text context) = .success r) ∧
        (e.kind ≠ e'.kind → e.kind = .trailingInput ∧ e'.kind = .mismatch)) ∧
    (∀ value final, p.runWith text context = .success (value, final) ↔
      ∃ r, p.parseWith text context = .success r ∧ r.value = value ∧ r.state.context = final) ∧
    (∀ c, p.runWith text context = .fault c ↔ p.parseWith text context = .fault c) ∧
    (∀ err, p.runWith text context = .failure err ↔
      ∃ e, p.parseWith text context = .failure e ∧
        err = { kind := e.kind, message := e.message, position := e.state.position }) ∧
    (∀ e err, p.parseWith text context = .failure e → p.runWith text context = .failure err →
      Position.ofOffset e.state.text e.state.index = .ok err.position ∧
        err.display = e.display) ∧
    ∀ q : Parser Unit α, q.parse text = q.parseWith text () ∧
      q.run text = (q.runWith text ()).map Prod.fst := by
  have hsuccess : ∀ r, p (.start text context) = .success r → r.state.WellFormed :=
    fun r h => hp _ (by rw [h]; rfl)
  obtain ⟨hsuccesses, hfaults, hfailures⟩ := parseWith_iff_sequence p text context hsuccess
  refine ⟨hsuccesses, hfaults, hfailures, ?_, fun _ _ => runWith_success_iff p text context,
    fun _ => runWith_fault_iff p text context, fun _ => runWith_failure_iff p text context, ?_,
    fun q => ⟨rfl, run_eq_map_runWith q text⟩⟩
  · intro e e' he he'
    obtain ⟨r, hrun, h, h'⟩ | ⟨r, hrun, h, h'⟩ | ⟨e, hrun, h, h'⟩ | ⟨c, hrun, h, h'⟩ :=
      parseWith_cases p text context hsuccess
    · simp [h] at he
    · obtain rfl := Outcome.failure.inj (h.symm.trans he)
      obtain rfl := Outcome.failure.inj (h'.symm.trans he')
      simp [hrun, Failure.trailing, Failure.mismatch]
    · obtain rfl := Outcome.failure.inj (h.symm.trans he)
      obtain rfl := Outcome.failure.inj (h'.symm.trans he')
      simp [hrun]
    · simp [h] at he
  · intro e err he herr
    obtain ⟨e', he', rfl⟩ := parseWith_of_runWith_failure herr
    obtain rfl := Outcome.failure.inj (he'.symm.trans he)
    have hwell := wellFormed_of_parseWith_failure p text context hp he
    exact ⟨State.ofOffset_of_wellFormed hwell, Failure.display_toParseError e'⟩

/-- Take a letter, and go on in another text. -/
def elsewhere : Parser Unit String :=
  bind (literal "a") fun _ s => literal "€" (.start "€\nx" s.context)

/-- The place that is reported is one of the other text. -/
theorem wholeRuns_are_sequences_elsewhere :
    (∀ t, (elsewhere (.start "a" ())).endState? = some t → t.WellFormed) ∧
    (∃ e, elsewhere.parseWith "a" () = .failure e ∧ e.kind = .trailingInput ∧
      e.state = { text := "€\nx", index := 3, context := () }) ∧
    elsewhere.runWith "a" () =
      .failure { kind := .trailingInput, message := "Expected end of file",
                 position := { offset := 3, line := 1, column := 2 } } := by
  have hrun : elsewhere (.start "a" ()) =
      .success { state := { text := "€\nx", index := 3, context := () }, value := "€" } := rfl
  have hp : ∀ t, (elsewhere (.start "a" ())).endState? = some t → t.WellFormed := by
    intro t ht
    rw [hrun] at ht
    obtain rfl := Option.some.inj ht
    decide
  obtain ⟨-, -, hfails, hsame, -, -, herror, -⟩ := wholeRuns_are_sequences elsewhere "a" () hp
  have hsequence : seqLeft elsewhere endOfText (.start "a" ()) =
      .failure { kind := .mismatch, message := "Expected end of file",
                 state := { text := "€\nx", index := 3, context := () } } := rfl
  obtain ⟨e, he⟩ := hfails.2 ⟨_, hsequence⟩
  obtain ⟨hmessage, hstate, hkind, hkinds⟩ := hsame e _ he hsequence
  have htrailing : e.kind = .trailingInput := (hkinds (hkind.2 ⟨_, hrun⟩)).1
  refine ⟨hp, ⟨e, he, htrailing, hstate⟩, (herror _).2 ⟨e, he, ?_⟩⟩
  rw [htrailing, hmessage, hstate]
  rfl

end ContextParser.Parser
