import ContextParser.Proofs.Cursor

/-!
# The views of a state

A state shows its text in several ways: what is before the cursor and what is behind it, the
character on either side, whether the end has been reached. Each of these cuts the text at the
cursor, and a cut is good at boundaries only. No operation makes a state whose cursor is off a
boundary, nor one with another text, and whatever context it carries. So the states that can be
made from the start of a text are the well-formed ones (`State.reachable_iff`), and on these the
views agree with each other and with the moves of the cursor (`State.Reachable.views_agree`).
-/

set_option autoImplicit false

namespace ContextParser.State

variable {C D : Type} {text : String} {s t : State C} {a n : Nat}

/-- The states that are made from the start of a text by any number of operations, none of which
ends in a fault. The context may become one of another type on the way. -/
inductive Reachable (text : String) : {C : Type} → State C → Prop where
  | start {C : Type} (context : C) : Reachable text (.start text context)
  | advance {C : Type} {s t : State C} {length : Nat} (hs : Reachable text s)
      (h : s.advance length = .ok t) : Reachable text t
  | withContext {C D : Type} {s : State C} (hs : Reachable text s) (context : D) :
      Reachable text (s.withContext context)
  | mapContext {C D : Type} {s : State C} (hs : Reachable text s) (f : C → D) :
      Reachable text (s.mapContext f)

/-! ## Moves of the cursor -/

/-- A move that succeeds adds its length to the index and changes nothing else. -/
theorem eq_of_advance (h : s.advance a = .ok t) : t = { s with index := s.index + a } := by
  rw [advance] at h
  split at h
  · exact (Except.ok.inj h).symm
  · simp at h

/-- Behind a move that succeeds, a second move is as good as one move by both lengths. -/
theorem advance_of_advance (h : s.advance a = .ok t) (b : Nat) :
    t.advance b = s.advance (a + b) := by
  rw [eq_of_advance h, advance, advance, Nat.add_assoc]

/-- The cursor may be moved over whole characters of what remains, and in no other way. -/
theorem advance_eq_ok_iff (hs : s.WellFormed) :
    s.advance n = .ok t ↔
      ∃ front back, s.remaining = front ++ back ∧ Text.byteLength front = n ∧ t = s.skip front := by
  rw [advance, ← isBoundary_remaining hs]
  constructor
  · intro h
    split at h
    · next hfits =>
      obtain ⟨front, back, hremaining, rfl⟩ := Text.isBoundary_iff.1 hfits
      exact ⟨front, back, hremaining, rfl, (Except.ok.inj h).symm⟩
    · simp at h
  · rintro ⟨front, back, hremaining, rfl, rfl⟩
    exact if_pos (Text.isBoundary_iff.2 ⟨front, back, hremaining, rfl⟩)

/-- The next character can be moved over, and is then the one before the cursor. -/
theorem advance_peek {c : Char} (hs : s.WellFormed) (hpeek : s.peek = some c) :
    ∃ t, s.advance c.utf8Size = .ok t ∧ t.prev = some c := by
  obtain ⟨cs, hremaining⟩ := List.head?_eq_some_iff.1 hpeek
  have hadvance : s.advance c.utf8Size = .ok (s.skip [c]) :=
    (advance_eq_ok_iff hs).2 ⟨[c], cs, hremaining, by simp, rfl⟩
  exact ⟨_, hadvance, prev_skip hs hremaining rfl⟩

/-- A move that ends inside the next character is refused. -/
theorem advance_of_lt_utf8Size {c : Char} (hs : s.WellFormed) (hpeek : s.peek = some c)
    (hpos : 0 < n) (hlt : n < c.utf8Size) :
    s.advance n = .error (.indexOffBoundary (s.index + n)) := by
  obtain ⟨cs, hremaining⟩ := List.head?_eq_some_iff.1 hpeek
  have hinside : ¬Text.isBoundary n s.remaining = true := by
    rw [hremaining, Text.isBoundary_iff]
    rintro ⟨front, back, hsplit, hlength⟩
    cases front with
    | nil =>
      rw [Text.byteLength_nil] at hlength
      omega
    | cons d ds =>
      obtain ⟨rfl, -⟩ := List.cons.inj hsplit
      rw [Text.byteLength_cons] at hlength
      omega
  rw [isBoundary_remaining hs] at hinside
  exact if_neg hinside

/-! ## Reachable states -/

/-- No operation replaces the text. -/
theorem Reachable.text_eq (h : Reachable text s) : s.text = text := by
  induction h with
  | start context => rfl
  | advance hs h ih => rw [eq_of_advance h, ih]
  | withContext hs context ih => exact ih
  | mapContext hs f ih => exact ih

/-- No operation takes the cursor off a boundary. -/
theorem Reachable.wellFormed (h : Reachable text s) : s.WellFormed := by
  induction h with
  | start context => exact wellFormed_start text context
  | advance hs h ih => exact wellFormed_of_advance h
  | withContext hs context ih => exact wellFormed_withContext ih context
  | mapContext hs f ih => exact wellFormed_mapContext ih f

/-- A well-formed state is reached from the start of its text in one move. -/
theorem reachable_iff : Reachable text s ↔ s.text = text ∧ s.WellFormed := by
  constructor
  · intro h
    exact ⟨h.text_eq, h.wellFormed⟩
  · rintro ⟨rfl, hs⟩
    have hstart : (start s.text s.context).advance s.index = .ok s := by
      rw [advance, start, Nat.zero_add]
      exact if_pos hs
    exact .advance (.start s.context) hstart

/-! ## Views -/

/-- No character comes next only where nothing is left. -/
theorem peek_eq_none_iff : s.peek = none ↔ s.rest = "" := by
  rw [peek, rest, List.head?_eq_none_iff, String.ofList_eq_empty_iff]

/-- No character has come before only at the start. -/
theorem prev_eq_none_iff (hs : s.WellFormed) : s.prev = none ↔ s.index = 0 := by
  rw [prev, List.getLast?_eq_none_iff, ← byteLength_consumed hs, Text.byteLength_eq_zero_iff]

/-- What has been consumed and what is left make up the text. -/
theorem ofList_consumed_append_rest (hs : s.WellFormed) :
    String.ofList s.consumed ++ s.rest = s.text := by
  rw [rest, ← String.ofList_append, append_of_wellFormed hs, String.ofList_toList]

/-- In every state that is made from the start of a text, the cursor is on a boundary of that text.
The cut there succeeds, and its two parts are the whole text. At the end, and only there, nothing is
left and no character comes next; at the start, and only there, no character has come before. The
next character may be moved over, and is then the one before the cursor, but no move ends inside it.
Two moves are as good as one by both lengths, also where the second is refused. -/
theorem Reachable.views_agree (h : Reachable text s) :
    (Text.isBoundary s.index text.toList = true ∧ s.index ≤ Text.byteLength text.toList) ∧
    (Text.cut s.index text.toList = .ok (s.consumed, s.remaining) ∧
      Text.byteLength s.consumed = s.index ∧ String.ofList s.consumed ++ s.rest = text) ∧
    (s.isAtEnd = true ↔ s.rest = "") ∧
    (s.rest = "" ↔ s.peek = none) ∧
    (s.prev = none ↔ s.index = 0) ∧
    (∀ c, s.peek = some c →
      (∃ t, s.advance c.utf8Size = .ok t ∧ t.prev = some c) ∧
      ∀ n, 0 < n → n < c.utf8Size → s.advance n = .error (.indexOffBoundary (s.index + n))) ∧
    ∀ a t, s.advance a = .ok t → ∀ b, t.advance b = s.advance (a + b) := by
  have hs := h.wellFormed
  obtain rfl := h.text_eq
  refine ⟨⟨hs, Text.le_of_isBoundary hs⟩, ⟨Text.cut_of_splitAt? (splitAt?_of_wellFormed hs),
    byteLength_consumed hs, ofList_consumed_append_rest hs⟩, isAtEnd_iff_rest hs,
    peek_eq_none_iff.symm, prev_eq_none_iff hs, ?_, ?_⟩
  · intro c hpeek
    exact ⟨advance_peek hs hpeek, fun n hpos hlt => advance_of_lt_utf8Size hs hpeek hpos hlt⟩
  · intro a t hadvance b
    exact advance_of_advance hadvance b

/-- Behind a character of two bytes, with a context of another type: the next one has three. -/
theorem Reachable.views_agree_accents :
    ∃ s : State String, Reachable "é€" s ∧ s.index = 2 ∧ s.context = "seven" ∧
      (∃ t, s.advance 3 = .ok t ∧ t.prev = some '€') ∧
      s.advance 1 = .error (.indexOffBoundary 3) ∧
      ∀ t, s.advance 3 = .ok t → t.advance 1 = .error (.indexOffBoundary 6) := by
  have hmoved : (State.start "é€" 7).advance 2 = .ok { text := "é€", index := 2, context := 7 } :=
    rfl
  have hreached : Reachable "é€" { text := "é€", index := 2, context := "seven" } :=
    .withContext (.advance (.start 7) hmoved) "seven"
  obtain ⟨-, -, -, -, -, hnext, hmoves⟩ := hreached.views_agree
  obtain ⟨hover, hinside⟩ := hnext '€' (by decide)
  refine ⟨_, hreached, rfl, rfl, hover, hinside 1 (by decide) (by decide), ?_⟩
  intro t ht
  rw [hmoves 3 t ht]
  rfl

end ContextParser.State
