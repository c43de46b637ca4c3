import ContextParser.Proofs.Readings
import ContextParser.Proofs.Repetition.Rounds

/-!
# Scans and loops

A run of characters of one class can be consumed in one go, by a scan that adds up their bytes, or
one at a time, by a repetition of a parser of single characters. The repetition comes to the end of
the run as soon as its budget has a round for each character and one more, in which the attempt at
the next character fails (`Parser.many_of_takesChar`).

For whitespace both ways are there, and they are the same (`Parser.whitespace_eq_many`). There is no
whitespace right behind either, so to skip it once more changes nothing.

A span has a first character of a class of its own, and the text of the whole is sliced at the end.
It is the sequence of that character and the repetition of the others, with the text of the sequence
for its value (`Parser.charSpan_eq_charByChar`).
-/

set_option autoImplicit false

namespace ContextParser

/-- A leading part that lies in the class lies in the run at the start. -/
theorem Text.prefix_takeWhile {accepts : Char → Bool} {front cs : List Char} (h : front <+: cs)
    (haccepts : ∀ c ∈ front, accepts c = true) : front <+: cs.takeWhile accepts := by
  obtain ⟨back, hback⟩ := h
  rw [← hback, List.takeWhile_append_of_pos haccepts]
  exact List.prefix_append ..

namespace Parser

variable {C α : Type} {accepts : Char → Bool} {value : Char → α} {p : Parser C α} {s : State C}

/-- A parser that consumes one character of a class and fails where none is next. -/
structure TakesChar (accepts : Char → Bool) (value : Char → α) (p : Parser C α) : Prop where
  success : ∀ {s c cs}, s.WellFormed → s.remaining = c :: cs → accepts c = true →
    p s = .success { state := s.skip [c], value := value c }
  failure : ∀ {s}, s.WellFormed → (∀ c ∈ s.remaining.head?, accepts c = false) →
    ∃ e, p s = .failure e

/-- The induction is on the run. Its first character is the first round of the repetition. -/
theorem many_of_takesChar (hp : TakesChar accepts value p) (hs : s.WellFormed)
    {front back : List Char} (hremaining : s.remaining = front ++ back)
    (hrun : Text.IsRun accepts front back) (rounds : Nat) :
    many p rounds s =
      if front.length < rounds then
        .success { state := s.skip front, value := front.map value }
      else
        .fault .outOfBudget := by
  induction front generalizing s rounds with
  | nil =>
    cases rounds with
    | zero => rfl
    | succ rounds =>
      have hnone : ∀ c ∈ s.remaining.head?, accepts c = false := by
        rw [hremaining]
        exact hrun.2
      have hfails := hp.failure hs hnone
      have hrounds : ([] : List Char).length < rounds + 1 := Nat.succ_pos rounds
      rw [if_pos hrounds]
      exact many_succ_eq_success_iff.2 (.inl ⟨hfails, rfl, rfl⟩)
  | cons c cs ih =>
    cases rounds with
    | zero => rfl
    | succ rounds =>
      have hparts : s.remaining = [c] ++ (cs ++ back) := hremaining
      have hfirst := hp.success hs hparts (hrun.1 c (List.mem_cons_self ..))
      have hmoved : (s.skip [c]).index ≠ s.index := by
        rw [ne_eq, State.index_skip_eq_iff]
        exact List.cons_ne_nil c []
      have htail : Text.IsRun accepts cs back := by
        apply And.intro _ hrun.2
        intro d hd
        exact hrun.1 d (List.mem_cons_of_mem c hd)
      have hrest :=
        ih (State.wellFormed_skip hs hparts) (State.remaining_skip hs hparts) htail rounds
      -- a round fewer is left for a character fewer, so the budgets suffice alike
      rw [many_succ_of_moved hfirst hmoved, zipWith_apply, hfirst, Outcome.bind_success, hrest]
      by_cases hrounds : cs.length < rounds
      · have hrounds' : (c :: cs).length < rounds + 1 := Nat.succ_lt_succ hrounds
        rw [if_pos hrounds, if_pos hrounds', Outcome.map_success, State.skip_skip]
        rfl
      · have hrounds' : ¬(c :: cs).length < rounds + 1 := by
          rw [List.length_cons]
          omega
        rw [if_neg hrounds, if_neg hrounds', Outcome.map_fault]

/-- One character of whitespace is taken at a time, without a value. -/
theorem takesChar_whitespaceChar :
    TakesChar Text.isWhitespace (fun _ => ()) (whitespaceChar : Parser C Unit) where
  success := by
    intro s c cs hs hremaining hc
    have hparts : s.remaining = [c] ++ cs := hremaining
    apply when_of_append hs hparts
    rw [State.peek, hremaining]
    simp [hc]
  failure := by
    intro s hs hnone
    refine ⟨_, when_of_none hs ?_⟩
    cases hremaining : s.remaining with
    | nil => simp [State.peek, hremaining]
    | cons c cs =>
      have hc : Text.isWhitespace c = false := hnone c (by rw [hremaining]; rfl)
      simp [State.peek, hremaining, hc]

/-- To skip whitespace in one scan is to skip it one character at a time. Both succeed, from every
well-formed state, and end in the same state: it has the text and the context of the first one, and
what remains there is what remained before without the longest run of whitespace at its start. The
repetition needs a round for each character of this run and one more. To skip whitespace once more
changes nothing. -/
theorem whitespace_eq_many (hs : s.WellFormed) :
    ∃ t : State C, whitespace s = .success { state := t, value := () } ∧
      (∀ rounds, map (many whitespaceChar rounds) (fun _ => ()) s =
        if (s.remaining.takeWhile Text.isWhitespace).length < rounds then
          .success { state := t, value := () }
        else
          .fault .outOfBudget) ∧
      t.WellFormed ∧ t.text = s.text ∧ t.context = s.context ∧
      t.index = s.index + Text.byteLength (s.remaining.takeWhile Text.isWhitespace) ∧
      t.remaining = s.remaining.dropWhile Text.isWhitespace ∧
      (∀ front, front <+: s.remaining → (∀ c ∈ front, Text.isWhitespace c = true) →
        front <+: s.remaining.takeWhile Text.isWhitespace) ∧
      seqRight whitespace whitespace s = .success { state := t, value := () } := by
  have hparts : s.remaining = s.remaining.takeWhile Text.isWhitespace ++
      s.remaining.dropWhile Text.isWhitespace := List.takeWhile_append_dropWhile.symm
  have hrun : Text.IsRun Text.isWhitespace (s.remaining.takeWhile Text.isWhitespace)
      (s.remaining.dropWhile Text.isWhitespace) := Text.isRun_takeWhile _ _
  have hscan := whitespace_of_wellFormed hs
  have ht := State.wellFormed_skip hs hparts
  have hrest := State.remaining_skip hs hparts
  refine ⟨s.skip (s.remaining.takeWhile Text.isWhitespace), hscan, ?_, ht, rfl, rfl, rfl, hrest, ?_,
    ?_⟩
  · intro rounds
    rw [map, many_of_takesChar takesChar_whitespaceChar hs hparts hrun]
    by_cases hrounds : (s.remaining.takeWhile Text.isWhitespace).length < rounds
    · rw [if_pos hrounds, if_pos hrounds]
      rfl
    · rw [if_neg hrounds, if_neg hrounds]
      rfl
  · intro front hfront hwhite
    exact Text.prefix_takeWhile hfront hwhite
  · -- there is no whitespace left for the second scan
    have hnothing : (s.remaining.dropWhile Text.isWhitespace).takeWhile Text.isWhitespace = [] := by
      have hempty : Text.IsRun Text.isWhitespace [] (s.remaining.dropWhile Text.isWhitespace) :=
        ⟨List.forall_mem_nil _, hrun.2⟩
      exact Text.isRun_iff.1 hempty
    rw [seqRight_apply, hscan, Outcome.bind_success, whitespace_of_wellFormed ht, hrest, hnothing,
      State.skip_nil]

/-- Three characters of whitespace, of two, one and three bytes, between two letters. Four rounds
are enough for them, and three are not. -/
theorem whitespace_eq_many_wide :
    map (many whitespaceChar 4) (fun _ => ())
        { text := "é\u0085 \u3000b", index := 2, context := 7 } =
      .success { state := { text := "é\u0085 \u3000b", index := 8, context := 7 }, value := () } ∧
    map (many whitespaceChar 3) (fun _ => ())
        { text := "é\u0085 \u3000b", index := 2, context := 7 } = .fault .outOfBudget := by
  have hs : ({ text := "é\u0085 \u3000b", index := 2, context := 7 } : State Nat).WellFormed := by
    decide
  obtain ⟨t, hscan, hmany, -⟩ := whitespace_eq_many hs
  have ht : t = { text := "é\u0085 \u3000b", index := 8, context := 7 } := by
    have hend : whitespace { text := "é\u0085 \u3000b", index := 2, context := 7 } =
        .success { state := { text := "é\u0085 \u3000b", index := 8, context := 7 },
                   value := () } := by
      decide +kernel
    rw [hscan] at hend
    exact congrArg Success.state (Outcome.success.inj hend)
  rw [hmany 4, hmany 3, ht]
  decide +kernel

/-! ## Spans of two classes -/

/-- A span of one class with nothing after it takes one character, which is the value. -/
theorem takesChar_charSpan (accepts : Char → Bool) :
    TakesChar accepts (fun c => String.ofList [c])
      (charSpan accepts fun _ => false : Parser C String) where
  success := by
    intro s c cs hs hremaining hc
    exact charSpan_single hs hremaining hc
  failure := by
    intro s hs hnone
    exact ⟨_, charSpan_of_spanLength hs (spanLength_eq_none_iff.2 (by simpa using hnone))⟩

/-- Consume a character of one class and then characters of another class one at a time, and yield
the consumed text. -/
def charByChar (initial following : Char → Bool) (rounds : Nat) : Parser C String :=
  map (withText (both (charSpan initial fun _ => false)
    (many (charSpan following fun _ => false) rounds))) Prod.snd

variable {initial following : Char → Bool}

/-- The repetition takes the run behind the first character, and the text of the whole is sliced
where the first character starts. -/
theorem charByChar_of_cons {c : Char} {cs : List Char} (hs : s.WellFormed)
    (hremaining : s.remaining = c :: cs) (hc : initial c = true) (rounds : Nat) :
    charByChar initial following rounds s =
      if (cs.takeWhile following).length < rounds then
        .success
          { state := s.skip (c :: cs.takeWhile following),
            value := String.ofList (c :: cs.takeWhile following) }
      else
        .fault .outOfBudget := by
  have hfirst : s.remaining = [c] ++ cs := hremaining
  -- the sequence ends in the middle of this cut, and the slice is what stands before it
  have hparts := remaining_eq_span following hremaining
  have hrest : (s.skip [c]).remaining = cs.takeWhile following ++ cs.dropWhile following := by
    rw [State.remaining_skip hs hfirst, List.takeWhile_append_dropWhile]
  have hslice := State.slice?_skip hs hparts
  rw [charByChar, map, withText, both, zipWith_apply, charSpan_single hs hremaining hc,
    Outcome.bind_success, many_of_takesChar (takesChar_charSpan following)
      (State.wellFormed_skip hs hfirst) hrest (Text.isRun_takeWhile following cs) rounds]
  by_cases hrounds : (cs.takeWhile following).length < rounds
  · rw [if_pos hrounds, if_pos hrounds, Outcome.map_success, State.skip_skip, List.singleton_append]
    simp only [Outcome.map_success, Success.map, hslice, Option.getD_some]
  · rw [if_neg hrounds, if_neg hrounds]
    rfl

/-- Where the first character is missing, the repetition is not reached. -/
theorem charByChar_of_spanLength (hs : s.WellFormed)
    (hlength : spanLength initial following s.remaining = none) (rounds : Nat) :
    charByChar initial following rounds s = .failure (.mismatch "Expected character" s) := by
  have hfails : spanLength initial (fun _ => false) s.remaining = none := by
    rw [spanLength_eq_none_iff] at hlength ⊢
    exact hlength
  rw [charByChar, map, withText, both, zipWith_apply, charSpan_of_spanLength hs hfails]
  rfl

/-- The repetition does what the span does, if it has rounds for all characters but the first one,
and is out of budget otherwise. -/
theorem charByChar_eq_ite (initial following : Char → Bool) (hs : s.WellFormed) (rounds : Nat) :
    charByChar initial following rounds s =
      if (s.remaining.tail.takeWhile following).length < rounds ∨
          spanLength initial following s.remaining = none then
        charSpan initial following s
      else
        .fault .outOfBudget := by
  by_cases hlength : spanLength initial following s.remaining = none
  · rw [if_pos (.inr hlength), charByChar_of_spanLength hs hlength,
      charSpan_of_spanLength hs hlength]
  · obtain ⟨c, hpeek, hc⟩ := not_not.1 (mt spanLength_eq_none_iff.2 hlength)
    obtain ⟨cs, hremaining⟩ := List.head?_eq_some_iff.1 hpeek
    have htail : s.remaining.tail = cs := by rw [hremaining, List.tail_cons]
    rw [charByChar_of_cons hs hremaining hc, charSpan_of_cons hs hremaining hc, htail]
    simp only [hlength, or_false]

/-- A span is found exactly where a character of the first class comes next. -/
theorem exists_charSpan_success_iff (hs : s.WellFormed) :
    (∃ r, charSpan initial following s = .success r) ↔ ∃ c ∈ s.peek, initial c = true := by
  constructor
  · rintro ⟨r, hr⟩
    by_contra hnone
    rw [charSpan_of_spanLength hs (spanLength_eq_none_iff.2 hnone)] at hr
    simp at hr
  · rintro ⟨c, hpeek, hc⟩
    obtain ⟨cs, hremaining⟩ := List.head?_eq_some_iff.1 hpeek
    exact ⟨_, charSpan_of_cons hs hremaining hc⟩

/-- What a span takes: no characters of the second class that could have been taken are left. -/
theorem charSpan_takes_longest (following : Char → Bool) (hs : s.WellFormed) {c : Char}
    {cs : List Char} (hremaining : s.remaining = c :: cs) (hc : initial c = true) :
    ∃ run r, charSpan initial following s = .success r ∧
      s.remaining = c :: run ++ r.state.remaining ∧
      Text.IsRun following run r.state.remaining ∧
      (∀ front, c :: front <+: s.remaining → (∀ d ∈ front, following d = true) → front <+: run) ∧
      r = { state := s.skip (c :: run), value := String.ofList (c :: run) } ∧
      Text.slice? s.index r.state.index s.text.toList = some r.value.toList := by
  have hparts := remaining_eq_span following hremaining
  have hrest := State.remaining_skip hs hparts
  refine ⟨cs.takeWhile following, _, charSpan_of_cons hs hremaining hc, ?_, ?_, ?_, rfl, ?_⟩
  · rw [hrest, hparts]
  · rw [hrest]
    exact Text.isRun_takeWhile following cs
  · intro front hfront hfollowing
    rw [hremaining, List.cons_prefix_cons] at hfront
    exact Text.prefix_takeWhile hfront.2 hfollowing
  · rw [State.slice?_skip hs hparts, String.toList_ofList]

/-- To take a span in one scan is to take its first character and then the others one at a time. The
two have the same outcome, failures included, as soon as the repetition has a round for each of
these characters and one more, and with fewer rounds it comes to no other. The span succeeds exactly
where a character of the first class comes next. It is this character and the longest run of the
second class behind it, which is never empty and is the part of the text between the two cursors.
Everywhere else it fails in the state in which it was started. -/
theorem charSpan_eq_charByChar (initial following : Char → Bool) (hs : s.WellFormed) :
    (∀ rounds, (s.remaining.tail.takeWhile following).length < rounds →
      charByChar initial following rounds s = charSpan initial following s) ∧
    (∀ rounds, charByChar initial following rounds s = charSpan initial following s ∨
      charByChar initial following rounds s = .fault .outOfBudget) ∧
    ((∃ r, charSpan initial following s = .success r) ↔ ∃ c ∈ s.peek, initial c = true) ∧
    (∀ r, charSpan initial following s = .success r → ∃ c run,
      initial c = true ∧ r.value = String.ofList (c :: run) ∧ r.value ≠ "" ∧
      s.remaining = c :: run ++ r.state.remaining ∧
      Text.IsRun following run r.state.remaining ∧
      (∀ front, c :: front <+: s.remaining → (∀ d ∈ front, following d = true) → front <+: run) ∧
      Text.slice? s.index r.state.index s.text.toList = some r.value.toList ∧
      r.state = s.skip (c :: run)) ∧
    ((¬∃ c ∈ s.peek, initial c = true) →
      charSpan initial following s = .failure (.mismatch "Expected character" s)) := by
  refine ⟨?_, ?_, exists_charSpan_success_iff hs, ?_, ?_⟩
  · intro rounds hrounds
    rw [charByChar_eq_ite initial following hs, if_pos (.inl hrounds)]
  · intro rounds
    rw [charByChar_eq_ite initial following hs]
    split
    · exact .inl rfl
    · exact .inr rfl
  · intro r hr
    obtain ⟨c, hpeek, hc⟩ := (exists_charSpan_success_iff hs).1 ⟨r, hr⟩
    obtain ⟨cs, hremaining⟩ := List.head?_eq_some_iff.1 hpeek
    obtain ⟨run, r', hr', hparts, hrun, hlongest, hvalue, hslice⟩ :=
      charSpan_takes_longest following hs hremaining hc
    obtain rfl := Outcome.success.inj (hr.symm.trans hr')
    have hne : r.value ≠ "" := by
      rw [hvalue, ne_eq, String.ofList_eq_empty_iff]
      exact List.cons_ne_nil c run
    exact ⟨c, run, hc, congrArg Success.value hvalue, hne, hparts, hrun, hlongest, hslice,
      congrArg Success.state hvalue⟩
  · intro hnone
    exact charSpan_of_spanLength hs (spanLength_eq_none_iff.2 hnone)

/-- A letter and then all that is no comma: characters of one, two and four bytes. For the two
behind the letter three rounds are enough, and two are not. At the comma both ways fail. -/
theorem charSpan_eq_charByChar_wide :
    charByChar Text.isAlphabetic (· != ',') 3 { text := "éaß😀,b", index := 2, context := 7 } =
      .success { state := { text := "éaß😀,b", index := 9, context := 7 }, value := "aß😀" } ∧
    charByChar Text.isAlphabetic (· != ',') 2 { text := "éaß😀,b", index := 2, context := 7 } =
      .fault .outOfBudget ∧
    charByChar Text.isAlphabetic (· != ',') 2 { text := "éaß😀,b", index := 9, context := 7 } =
      .failure { kind := .mismatch, message := "Expected character",
                 state := { text := "éaß😀,b", index := 9, context := 7 } } := by
  have hs : ({ text := "éaß😀,b", index := 2, context := 7 } : State Nat).WellFormed := by decide
  have hs' : ({ text := "éaß😀,b", index := 9, context := 7 } : State Nat).WellFormed := by decide
  obtain ⟨hequal, -⟩ := charSpan_eq_charByChar Text.isAlphabetic (· != ',') hs
  obtain ⟨hequal', -, -, -, hfails⟩ := charSpan_eq_charByChar Text.isAlphabetic (· != ',') hs'
  refine ⟨?_, by decide +kernel, ?_⟩
  · rw [hequal 3 (by decide +kernel)]
    decide +kernel
  · rw [hequal' 2 (by decide +kernel)]
    apply hfails
    rintro ⟨c, hc, hletter⟩
    obtain rfl : ',' = c := Option.some.inj hc
    exact absurd hletter (by decide +kernel)

end Parser

end ContextParser
