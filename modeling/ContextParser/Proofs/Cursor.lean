import ContextParser.Parser.Text

/-!
# Moving the cursor

Consuming some of the characters that remain moves the cursor by their bytes and nothing else
(`State.skip`). On a well-formed state this is all that `when` ever does: if the predicate asks for
a length that cuts the remaining characters in two, the first part is skipped, and if it asks for
nothing the failure is reported at the same state (`when_of_wellFormed`). What the parsers of fixed
texts and of character spans do follows from that.
-/

set_option autoImplicit false

namespace ContextParser

namespace State

variable {C : Type}

/-- The state after some characters have been consumed. -/
def skip (s : State C) (front : List Char) : State C :=
  { s with index := s.index + Text.byteLength front }

/-- To skip characters leaves the text as it is. -/
@[simp] theorem text_skip (s : State C) (front : List Char) : (s.skip front).text = s.text := rfl

/-- The cursor moves by the bytes of the characters that are skipped. -/
@[simp] theorem index_skip (s : State C) (front : List Char) :
    (s.skip front).index = s.index + Text.byteLength front := rfl

/-- To skip nothing leaves the state as it is. -/
@[simp] theorem skip_nil (s : State C) : s.skip [] = s := rfl

/-- To skip twice is to skip both parts at once. -/
theorem skip_skip (s : State C) (front middle : List Char) :
    (s.skip front).skip middle = s.skip (front ++ middle) := by
  simp [skip, Nat.add_assoc]

/-- Only the empty text leaves the cursor where it is. -/
theorem index_skip_eq_iff {s : State C} {front : List Char} :
    (s.skip front).index = s.index ↔ front = [] := by
  rw [index_skip, ← Text.byteLength_eq_zero_iff]
  omega

variable {s : State C} {front back : List Char}

/-- Behind skipped characters, these count as consumed and the others remain. -/
theorem splitAt?_skip (hs : s.WellFormed) (h : s.remaining = front ++ back) :
    Text.splitAt? (s.skip front).index (s.skip front).text.toList =
      some (s.consumed ++ front, back) := by
  rw [Text.splitAt?_eq_some_iff, text_skip, index_skip, ← append_of_wellFormed hs, h,
    Text.byteLength_append, byteLength_consumed hs]
  exact ⟨(List.append_assoc ..).symm, rfl⟩

/-- Behind whole characters of what remains, the cursor is on a boundary. -/
theorem wellFormed_skip (hs : s.WellFormed) (h : s.remaining = front ++ back) :
    (s.skip front).WellFormed := by
  rw [WellFormed, Text.isBoundary, splitAt?_skip hs h]
  rfl

/-- What remains behind skipped characters is what stood after them. -/
theorem remaining_skip (hs : s.WellFormed) (h : s.remaining = front ++ back) :
    (s.skip front).remaining = back := by
  simp only [remaining, splitAt?_skip hs h, Option.map_some, Option.getD_some]

/-- Skipped characters are added to those that have been consumed. -/
theorem consumed_skip (hs : s.WellFormed) (h : s.remaining = front ++ back) :
    (s.skip front).consumed = s.consumed ++ front := by
  simp only [consumed, splitAt?_skip hs h, Option.map_some, Option.getD_some]

/-- The next character is the first of those that have not been skipped. -/
theorem peek_skip (hs : s.WellFormed) (h : s.remaining = front ++ back) :
    (s.skip front).peek = back.head? := by
  rw [peek, remaining_skip hs h]

/-- The character before the cursor is the last of those that have been skipped. -/
theorem prev_skip {c : Char} (hs : s.WellFormed) (h : s.remaining = front ++ back)
    (hlast : front.getLast? = some c) : (s.skip front).prev = some c := by
  rw [prev, consumed_skip hs h, List.getLast?_append, hlast, Option.some_or]

/-- The text between a cursor and the same cursor moved is what was skipped. -/
theorem slice?_skip (hs : s.WellFormed) (h : s.remaining = front ++ back) :
    Text.slice? s.index (s.skip front).index s.text.toList = some front := by
  refine Text.slice?_eq_some_iff.2 ⟨s.consumed, back, ?_, byteLength_consumed hs, ?_⟩
  · rw [List.append_assoc, ← h, append_of_wellFormed hs]
  · rw [Text.byteLength_append, byteLength_consumed hs, index_skip]

/-- A length fits into what remains exactly when the cursor may be moved by it. -/
theorem isBoundary_remaining (hs : s.WellFormed) (length : Nat) :
    Text.isBoundary length s.remaining = Text.isBoundary (s.index + length) s.text.toList := by
  rw [← append_of_wellFormed hs, ← byteLength_consumed hs, Text.isBoundary_add]

/-- At the end of the text there is nothing left. -/
theorem isAtEnd_iff (hs : s.WellFormed) : s.isAtEnd = true ↔ s.remaining = [] := by
  have htext : Text.byteLength s.text.toList = s.index + Text.byteLength s.remaining := by
    rw [← append_of_wellFormed hs, Text.byteLength_append, byteLength_consumed hs]
  rw [isAtEnd, beq_iff_eq, htext, ← Text.byteLength_eq_zero_iff]
  omega

/-- At the end, and nowhere else, the remaining text is empty. -/
theorem isAtEnd_iff_rest (hs : s.WellFormed) : s.isAtEnd = true ↔ s.rest = "" := by
  rw [isAtEnd_iff hs, rest, String.ofList_eq_empty_iff]

end State

namespace Parser

variable {C : Type} {s : State C} {predicate : State C → Option Nat} {message : String}

/-- What `when` does on a well-formed state. The cursor is not checked a second time once the length
is known to fit. -/
theorem when_of_wellFormed (hs : s.WellFormed) :
    when predicate message s =
      match predicate s with
      | none => .failure (.mismatch message s)
      | some length =>
        if Text.isBoundary length s.remaining then
          .success { state := { s with index := s.index + length }, value := () }
        else
          .fault (.lengthOffBoundary length) := by
  have hcut := Text.cut_of_splitAt? (State.splitAt?_of_wellFormed hs)
  simp only [when, hcut, Outcome.ofExcept, Outcome.bind_success]
  cases predicate s with
  | none => rfl
  | some length =>
    dsimp only
    split
    · next hfits =>
      rw [State.isBoundary_remaining hs] at hfits
      rw [State.advance, if_pos hfits]
      rfl
    · rfl

/-- From any state, `when` moves the cursor by as many bytes as its predicate asks for, and changes
nothing else. -/
theorem state_of_when {predicate : State C → Option Nat} {message : String} {r : Success C Unit}
    (h : when predicate message s = .success r) :
    ∃ length, predicate s = some length ∧ r.state = { s with index := s.index + length } := by
  unfold when at h
  cases hcut : Text.cut s.index s.text.toList with
  | error c => simp [hcut, Outcome.ofExcept] at h
  | ok parts =>
    rw [hcut, Outcome.ofExcept, Outcome.bind_success] at h
    cases hlength : predicate s with
    | none => simp [hlength] at h
    | some length =>
      simp only [hlength, State.advance] at h
      split at h
      · split at h
        · cases h
          exact ⟨length, rfl, rfl⟩
        · simp [Outcome.ofExcept] at h
      · simp at h

/-- A predicate that asks for the bytes of leading characters has these skipped. -/
theorem when_of_append {front back : List Char} (hs : s.WellFormed)
    (hremaining : s.remaining = front ++ back)
    (hpredicate : predicate s = some (Text.byteLength front)) :
    when predicate message s = .success { state := s.skip front, value := () } := by
  have hfits : Text.isBoundary (Text.byteLength front) s.remaining = true :=
    Text.isBoundary_iff.2 ⟨front, back, hremaining, rfl⟩
  rw [when_of_wellFormed hs, hpredicate]
  exact if_pos hfits

/-- A predicate that asks for nothing makes `when` fail with its message, right there. -/
theorem when_of_none (hs : s.WellFormed) (hpredicate : predicate s = none) :
    when predicate message s = .failure (.mismatch message s) := by
  rw [when_of_wellFormed hs, hpredicate]

/-- A predicate that asks for no length but only says yes or no. -/
theorem when_assertion (holds : State C → Prop) [DecidablePred holds] (hs : s.WellFormed) :
    when (fun s => if holds s then some 0 else none) message s =
      if holds s then .success { state := s, value := () } else .failure (.mismatch message s) := by
  by_cases h : holds s
  · have hlength : (if holds s then some 0 else none) = some (Text.byteLength []) := if_pos h
    rw [when_of_append hs (List.nil_append _).symm hlength, State.skip_nil, if_pos h]
  · have hnone : (if holds s then some 0 else none) = none := if_neg h
    rw [when_of_none hs hnone, if_neg h]

/-- The parser for the end of the text tells whether the cursor is there and consumes nothing. -/
theorem endOfText_of_wellFormed (hs : s.WellFormed) :
    endOfText s =
      if s.isAtEnd then .success { state := s, value := () }
      else .failure (.mismatch Failure.endExpected s) :=
  when_assertion _ hs

/-- The parser for word boundaries tells whether the cursor is at one and consumes nothing. -/
theorem wordBoundary_of_wellFormed (hs : s.WellFormed) :
    wordBoundary s =
      if isAtWordBoundary s then .success { state := s, value := () }
      else .failure (.mismatch "Expected word boundary" s) :=
  when_assertion _ hs

/-- All whitespace at the cursor is skipped at once, also if there is none. -/
theorem whitespace_of_wellFormed (hs : s.WellFormed) :
    whitespace s =
      .success { state := s.skip (s.remaining.takeWhile Text.isWhitespace), value := () } :=
  when_of_append hs List.takeWhile_append_dropWhile.symm rfl

/-- A fixed text that comes next is skipped. -/
theorem literal_of_append {text : String} {back : List Char} (hs : s.WellFormed)
    (hremaining : s.remaining = text.toList ++ back) :
    literal text s = .success { state := s.skip text.toList, value := text } := by
  have hstarts : text.toList.isPrefixOf s.remaining = true := by
    rw [List.isPrefixOf_iff_prefix, hremaining]
    exact List.prefix_append ..
  rw [literal, map, when_of_append hs hremaining (if_pos hstarts)]
  rfl

/-- A fixed text that does not come next is reported missing where it was expected. -/
theorem literal_of_not_starting {text : String} (hs : s.WellFormed)
    (hstarts : ¬text.toList <+: s.remaining) :
    literal text s = .failure (.mismatch ("Expected \"" ++ text ++ "\"") s) := by
  rw [← List.isPrefixOf_iff_prefix] at hstarts
  rw [literal, map, when_of_none hs (if_neg hstarts)]
  rfl

/-- From any state, a fixed text that is found moves the cursor by its own bytes. -/
theorem state_of_literal {text : String} {r : Success C String} (h : literal text s = .success r) :
    r.state = { s with index := s.index + Text.byteLength text.toList } := by
  unfold literal map at h
  cases hwhen : when _ _ s with
  | success r' =>
    rw [hwhen] at h
    obtain ⟨length, hlength, hstate⟩ := state_of_when hwhen
    simp only [Option.ite_none_right_eq_some, Option.some.injEq] at hlength
    cases h
    rw [hlength.2]
    exact hstate
  | failure e =>
    rw [hwhen] at h
    cases h
  | fault c =>
    rw [hwhen] at h
    cases h

/-- Behind a fixed text the cursor is further by the bytes of that text. -/
theorem index_of_literal {text : String} {r : Success C String} (h : literal text s = .success r) :
    r.state.index = s.index + Text.byteLength text.toList :=
  congrArg State.index (state_of_literal h)

/-- Behind characters that have just been consumed, it only matters what the last of them is and
what the next one is. -/
theorem isAtWordBoundary_skip_iff {front back : List Char} {last : Char} (hs : s.WellFormed)
    (hremaining : s.remaining = front ++ back) (hlast : front.getLast? = some last) :
    isAtWordBoundary (s.skip front) = true ↔
      ∀ next ∈ back.head?, Text.isAlphanumeric last ≠ Text.isAlphanumeric next := by
  rw [isAtWordBoundary, State.prev_skip hs hremaining hlast, State.peek_skip hs hremaining]
  cases back <;> simp

/-- Where its text comes next, a keyword depends on the word boundary behind it. -/
theorem keyword_of_append {text : String} {back : List Char} (hs : s.WellFormed)
    (hremaining : s.remaining = text.toList ++ back) :
    keyword text s =
      if isAtWordBoundary (s.skip text.toList) then
        .success { state := s.skip text.toList, value := text }
      else
        .failure (.mismatch "Expected word boundary" (s.skip text.toList)) := by
  rw [keyword, seqLeft_eq_zipWith, zipWith_apply, literal_of_append hs hremaining,
    Outcome.bind_success, wordBoundary_of_wellFormed (State.wellFormed_skip hs hremaining)]
  split
  · rfl
  · rfl

/-- A keyword whose text does not come next fails as the text would. -/
theorem keyword_of_not_starting {text : String} (hs : s.WellFormed)
    (hstarts : ¬text.toList <+: s.remaining) :
    keyword text s = .failure (.mismatch ("Expected \"" ++ text ++ "\"") s) := by
  rw [keyword, seqLeft_eq_zipWith, zipWith_apply, literal_of_not_starting hs hstarts,
    Outcome.bind_failure]

variable {initial following : Char → Bool}

/-- What remains is a first character, the run of a class behind it, and the rest. -/
theorem remaining_eq_span (following : Char → Bool) {c : Char} {cs : List Char}
    (hremaining : s.remaining = c :: cs) :
    s.remaining = (c :: cs.takeWhile following) ++ cs.dropWhile following := by
  rw [hremaining, List.cons_append, List.takeWhile_append_dropWhile]

/-- A span takes its first character and the whole run of the second class behind it. -/
theorem charSpan_of_cons {c : Char} {cs : List Char} (hs : s.WellFormed)
    (hremaining : s.remaining = c :: cs) (hc : initial c = true) :
    charSpan initial following s =
      .success
        { state := s.skip (c :: cs.takeWhile following),
          value := String.ofList (c :: cs.takeWhile following) } := by
  have hparts := remaining_eq_span following hremaining
  have hlength : spanLength initial following s.remaining =
      some (Text.byteLength (c :: cs.takeWhile following)) := by
    rw [hremaining]
    exact if_pos hc
  have hslice := State.slice?_skip hs hparts
  rw [charSpan, map, withText, when_of_append hs hparts hlength]
  simp only [Outcome.map_success, Success.map, hslice, Option.getD_some]

/-- Where no character may follow the first, a span is a single character. -/
theorem charSpan_single {accepts : Char → Bool} {c : Char} {cs : List Char} (hs : s.WellFormed)
    (hremaining : s.remaining = c :: cs) (hc : accepts c = true) :
    charSpan accepts (fun _ => false) s =
      .success { state := s.skip [c], value := String.ofList [c] } := by
  have hnone : cs.takeWhile (fun _ => false) = [] := by
    cases cs with
    | nil => rfl
    | cons d ds => exact List.takeWhile_cons_of_neg (by simp)
  rw [charSpan_of_cons hs hremaining hc, hnone]

/-- There is no span where no character of the first class comes next. -/
theorem spanLength_eq_none_iff {cs : List Char} :
    spanLength initial following cs = none ↔ ¬∃ c ∈ cs.head?, initial c = true := by
  cases cs with
  | nil => simp [spanLength]
  | cons c cs => simp [spanLength]

/-- Without a character to start with, a span fails where it was expected. -/
theorem charSpan_of_spanLength (hs : s.WellFormed)
    (hlength : spanLength initial following s.remaining = none) :
    charSpan initial following s = .failure (.mismatch "Expected character" s) := by
  rw [charSpan, map, withText, when_of_none hs hlength]
  rfl

end Parser

end ContextParser
