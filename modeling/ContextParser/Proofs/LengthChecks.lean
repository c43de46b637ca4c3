import ContextParser.Proofs.StateViews

/-!
# Two checks of one length

A length that a predicate asks for is checked twice. `when` looks for a boundary that many bytes
into the remaining text, and `advance` looks for one in the whole text, that many bytes behind the
cursor. Either check amounts to reading a single byte: it passes at the end of a text, and where the
byte is the first one of a character (`Text.isValid_ofList`). The two texts differ by what has been
consumed, which in a well-formed state is a number of whole characters, so the checks read the same
byte and agree (`State.isValid_rest`).

Hence the second check never fails where the first has passed, and `when` is `advance` with a fault
of its own (`Parser.when_eq_advance`).
-/

set_option autoImplicit false

namespace ContextParser

namespace Text

/-- The bytes of a text are those of its characters. -/
theorem utf8ByteSize_ofList (cs : List Char) : (String.ofList cs).utf8ByteSize = byteLength cs := by
  induction cs with
  | nil => rfl
  | cons c cs ih =>
    rw [String.ofList_cons, String.utf8ByteSize_append, String.utf8ByteSize_singleton, ih,
      byteLength_cons]

/-- Counting whole characters finds the same boundaries as reading one byte. -/
theorem isValid_ofList (n : Nat) (cs : List Char) :
    String.Pos.Raw.isValid (String.ofList cs) ⟨n⟩ = isBoundary n cs := by
  -- Both say that some leading part of the text takes up that many bytes.
  rw [Bool.eq_iff_iff, String.Pos.Raw.isValid_eq_true_iff, String.Pos.Raw.isValid_iff_exists_append,
    isBoundary_iff]
  constructor
  · rintro ⟨front, back, htext, hlength⟩
    refine ⟨front.toList, back.toList, ?_, ?_⟩
    · rw [← String.toList_append, ← htext, String.toList_ofList]
    · rw [← utf8ByteSize_ofList, String.ofList_toList]
      exact (congrArg String.Pos.Raw.byteIdx hlength).symm
  · rintro ⟨front, back, rfl, rfl⟩
    refine ⟨.ofList front, .ofList back, String.ofList_append, ?_⟩
    rw [String.rawEndPos, utf8ByteSize_ofList]

end Text

namespace State

variable {C : Type} {s : State C} {length : Nat}

/-- A position in the text of a state is valid exactly at the boundaries. -/
theorem isValid_text (s : State C) (n : Nat) :
    String.Pos.Raw.isValid s.text ⟨n⟩ = Text.isBoundary n s.text.toList := by
  rw [← Text.isValid_ofList, String.ofList_toList]

/-- A length fits into the remaining text where the cursor and the length fit into the whole. -/
theorem isValid_rest (hs : s.WellFormed) (length : Nat) :
    String.Pos.Raw.isValid s.rest ⟨length⟩ = String.Pos.Raw.isValid s.text ⟨s.index + length⟩ := by
  rw [rest, Text.isValid_ofList, isBoundary_remaining hs, isValid_text]

/-- What `advance` asks of a length is a boundary of the whole text, read off its bytes. -/
theorem advance_ok_iff_isValid :
    (∃ t, s.advance length = .ok t) ↔
      String.Pos.Raw.isValid s.text ⟨s.index + length⟩ = true := by
  rw [isValid_text, advance]
  split
  · next hfits => simp [hfits]
  · next hfits => simp [hfits]

end State

namespace Parser

variable {C : Type} {s : State C} {predicate : State C → Option Nat} {message : String}

/-- On a well-formed state, `when` moves the cursor as `advance` does. A length that `advance` would
refuse never gets there: it ends in a fault that tells the length and not the index. -/
theorem when_eq_advance (hs : s.WellFormed) :
    when predicate message s =
      match predicate s with
      | none => .failure (.mismatch message s)
      | some length =>
        match s.advance length with
        | .ok t => .success { state := t, value := () }
        | .error _ => .fault (.lengthOffBoundary length) := by
  rw [when_of_wellFormed hs]
  cases predicate s with
  | none => rfl
  | some length =>
    dsimp only
    rw [State.isBoundary_remaining hs, State.advance]
    split
    · rfl
    · rfl

/-- A length asked for on a well-formed state passes the check on the remaining text exactly when it
passes the one on the whole text, and `advance` goes by the latter. So `when` ends in a fault of its
own exactly where `advance` would refuse the length, and never in that of `advance`. Everywhere else
it answers with the state that `advance` makes, and the context is that of before. The predicate may
look at all of the state. -/
theorem length_checks_agree (hs : s.WellFormed) (predicate : State C → Option Nat)
    (message : String) :
    (∀ length, String.Pos.Raw.isValid s.rest ⟨length⟩ = true ↔
      String.Pos.Raw.isValid s.text ⟨s.index + length⟩ = true) ∧
    (∀ length, (∃ t, s.advance length = .ok t) ↔
      String.Pos.Raw.isValid s.text ⟨s.index + length⟩ = true) ∧
    (∀ length, predicate s = some length →
      (when predicate message s = .fault (.lengthOffBoundary length) ↔
        ∃ cause, s.advance length = .error cause) ∧
      ∀ t, s.advance length = .ok t →
        when predicate message s = .success { state := t, value := () } ∧
          t.context = s.context) ∧
    ∀ index, when predicate message s ≠ .fault (.indexOffBoundary index) := by
  refine ⟨?_, fun length => State.advance_ok_iff_isValid, ?_, ?_⟩
  · intro length
    rw [State.isValid_rest hs]
  · intro length hlength
    cases hadvance : s.advance length with
    | ok t =>
      have hwhen : when predicate message s = .success { state := t, value := () } := by
        simp only [when_eq_advance hs, hlength, hadvance]
      refine ⟨by simp [hwhen], ?_⟩
      intro t' ht
      obtain rfl := Except.ok.inj ht
      refine ⟨hwhen, ?_⟩
      rw [State.eq_of_advance hadvance]
    | error cause =>
      have hwhen : when predicate message s = .fault (.lengthOffBoundary length) := by
        simp only [when_eq_advance hs, hlength, hadvance]
      exact ⟨by simp [hwhen], by simp⟩
  · -- What `advance` says where it refuses is dropped.
    intro index
    rw [when_eq_advance hs]
    cases predicate s with
    | none => simp
    | some length =>
      dsimp only
      cases s.advance length <;> simp

/-- The context says how many bytes to consume. The next character has two: one byte leads inside,
two lead behind it. -/
theorem length_checks_agree_contextLength :
    (State.WellFormed { text := "aéb", index := 1, context := 2 } ∧
      when (fun s => some s.context) "Expected length" { text := "aéb", index := 1, context := 2 } =
        .success { state := { text := "aéb", index := 3, context := 2 }, value := () }) ∧
    State.WellFormed { text := "aéb", index := 1, context := 1 } ∧
      when (fun s => some s.context) "Expected length" { text := "aéb", index := 1, context := 1 } =
        .fault (.lengthOffBoundary 1) ∧
      ¬String.Pos.Raw.isValid "aéb" ⟨2⟩ = true := by
  have hover : State.WellFormed { text := "aéb", index := 1, context := 2 } := by decide
  have hinside : State.WellFormed { text := "aéb", index := 1, context := 1 } := by decide
  obtain ⟨-, -, hwhen, -⟩ :=
    length_checks_agree hover (fun s => some s.context) "Expected length"
  obtain ⟨hchecks, -, hwhen', -⟩ :=
    length_checks_agree hinside (fun s => some s.context) "Expected length"
  have hrest : ¬String.Pos.Raw.isValid "éb" ⟨1⟩ = true := by decide
  exact ⟨⟨hover, ((hwhen 2 rfl).2 _ rfl).1⟩, hinside, (hwhen' 1 rfl).1.2 ⟨_, rfl⟩,
    mt (hchecks 1).2 hrest⟩

end Parser

end ContextParser
