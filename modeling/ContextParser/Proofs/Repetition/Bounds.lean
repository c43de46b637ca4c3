import ContextParser.Proofs.Budget
import ContextParser.Proofs.Repetition.Rounds

/-!
# How long repetitions go on

A repetition of a parser that never goes back comes to an end. A round that moves the cursor takes a
character at least, and one that does not move it is the last; so there are no more rounds than
there are characters left, and one more (`repetitions_end`). For `separatedBy`, which does not look
whether a round has moved the cursor, it has to be known that no separator with an item behind it
stands still.

The rounds are counted twice: as the budget that is enough for the loop, and as the chains of rounds
behind which another attempt is made.
-/

set_option autoImplicit false

namespace ContextParser

open Relation (ReflTransGen)

variable {C α β : Type}

/-- A parser does under one budget what it does under the same one. -/
theorem Simulation.simulates_refl (p : Parser C α) : (Simulation.budget C).Simulates p p := by
  rintro s _ rfl
  exact Simulation.agree_refl _

namespace Parser

variable {p : Parser C α} {sep : Parser C β} {rounds limit : Nat} {s t : State C}
  {values : List α}

/-- A parser that ends, in whatever way, wherever it may be started. -/
def Terminates (p : Parser C α) : Prop :=
  ∀ s : State C, s.WellFormed → p s ≠ .fault .outOfBudget

/-- A parser that is never out of budget ends wherever it is started. -/
theorem IsPlain.terminates (hp : p.IsPlain) : p.Terminates := fun s _ =>
  hp.ne_outOfBudget s

/-- A loop has ended when it has had so many rounds: it is not out of budget, and with more rounds
it does the same. A round of `many` or `many1` is one attempt at the parser. -/
def EndsWithin (loop : Nat → Parser C (List α)) (s : State C) (limit : Nat) : Prop :=
  loop limit s ≠ .fault .outOfBudget ∧ ∀ rounds, limit ≤ rounds → loop rounds s = loop limit s

/-- A loop that is not out of budget has ended, if more rounds do not change what it does. -/
theorem endsWithin_of_simulates {loop : Nat → Parser C (List α)}
    (hloop : ∀ rounds, limit ≤ rounds →
      (Simulation.budget C).Simulates (loop limit) (loop rounds))
    (h : loop limit s ≠ .fault .outOfBudget) : EndsWithin loop s limit :=
  ⟨h, fun rounds hle => Simulation.eq_of_agree (hloop rounds hle s s rfl) h⟩

/-- A repetition that is not out of budget has ended. -/
theorem endsWithin_many (h : many p limit s ≠ .fault .outOfBudget) :
    EndsWithin (many p) s limit := by
  apply endsWithin_of_simulates _ h
  intro rounds hle
  exact Simulation.simulates_many (Simulation.simulates_refl p) (.inr ⟨hle, rfl⟩)

/-- A repetition that has to succeed once has ended as well, if it is not out of budget. -/
theorem endsWithin_many1 (h : many1 p limit s ≠ .fault .outOfBudget) :
    EndsWithin (many1 p) s limit := by
  apply endsWithin_of_simulates _ h
  intro rounds hle
  exact Simulation.simulates_many1 (Simulation.simulates_refl p) (.inr ⟨hle, rfl⟩)

/-- Separated items have ended if their loop is not out of budget. -/
theorem endsWithin_separatedBy (h : separatedBy p sep limit s ≠ .fault .outOfBudget) :
    EndsWithin (separatedBy p sep) s limit := by
  apply endsWithin_of_simulates _ h
  intro rounds hle
  exact Simulation.simulates_separatedBy (Simulation.simulates_refl p)
    (Simulation.simulates_refl sep) (.inr ⟨hle, rfl⟩)

/-! ## Rounds and characters -/

/-- Every round of a chain whose rounds all move the cursor has taken a character. -/
theorem Chain.length_le_of_moves (hp : p.GoesAhead) (hs : s.WellFormed) (c : Chain p s values t)
    (hc : ∀ i, c.Moves i) : values.length + t.remaining.length ≤ s.remaining.length := by
  induction values generalizing s with
  | nil =>
    have hstate := c.eq_of_nil
    subst hstate
    simp
  | cons v values ih =>
    have hahead := hp _ _ hs c.head
    have hshorter := hahead.length_remaining_lt hs (c.moves_zero_iff.1 (hc 0))
    have hrest := ih hahead.wellFormed c.tail fun i => hc i.succ
    rw [List.length_cons]
    omega

/-- The last round of a complete chain need not have taken a character. -/
theorem Chain.Complete.length_le (hp : p.GoesAhead) (hs : s.WellFormed) {c : Chain p s values t}
    (hc : c.Complete) : values.length ≤ s.remaining.length + 1 := by
  induction values generalizing s with
  | nil => simp
  | cons v values ih =>
    by_cases hmoved : c.Moves 0
    · have hahead := hp _ _ hs c.head
      have hshorter := hahead.length_remaining_lt hs (c.moves_zero_iff.1 hmoved)
      have hrest := ih hahead.wellFormed (hc.tail hmoved)
      rw [List.length_cons]
      omega
    · obtain rfl := hc.eq_nil hmoved
      simp

/-- A repetition yields no more values than there are characters left, and one. -/
theorem length_le_of_many (hp : p.GoesAhead) (hs : s.WellFormed)
    (h : many p rounds s = .success { state := t, value := values }) :
    values.length ≤ s.remaining.length + 1 := by
  obtain ⟨c, hc⟩ := exists_chain_of_many h
  exact hc.length_le hp hs

/-- A separator and an item behind it go ahead if each of them does. -/
theorem GoesAhead.seqRight (hsep : sep.GoesAhead) (hp : p.GoesAhead) :
    (seqRight sep p).GoesAhead := by
  rw [← Contract.kept_ahead_iff] at hsep hp ⊢
  exact Contract.kept_seqRight hsep hp

/-- If no round stands still, each of them takes a character. -/
theorem length_le_of_separatedTail (hround : (seqRight sep p).GoesAhead)
    (hmoves : ∀ s r, s.WellFormed → seqRight sep p s = .success r → r.state.index ≠ s.index)
    (hs : s.WellFormed)
    (h : separatedTail p sep rounds s = .success { state := t, value := values }) :
    values.length ≤ s.remaining.length := by
  induction rounds generalizing s values with
  | zero => simp [separatedTail] at h
  | succ rounds ih =>
    rw [separatedTail_succ] at h
    rcases turn_eq_success_iff.1 h with ⟨-, -, rfl⟩ | ⟨r, rest, hrun, hrest, rfl⟩
    · simp
    · have hahead := hround s r hs hrun
      have hshorter := hahead.length_remaining_lt hs (hmoves s r hs hrun)
      have hlength := ih hahead.wellFormed hrest
      rw [List.length_cons]
      omega

/-- The first item may be empty. -/
theorem length_le_of_separatedBy (hp : p.GoesAhead) (hround : (seqRight sep p).GoesAhead)
    (hmoves : ∀ s r, s.WellFormed → seqRight sep p s = .success r → r.state.index ≠ s.index)
    (hs : s.WellFormed)
    (h : separatedBy p sep rounds s = .success { state := t, value := values }) :
    values.length ≤ s.remaining.length + 1 := by
  rw [separatedBy_eq_turn] at h
  rcases turn_eq_success_iff.1 h with ⟨-, -, rfl⟩ | ⟨r, rest, hrun, hrest, rfl⟩
  · simp
  · have hahead := hp s r hs hrun
    have hle := hahead.length_remaining_le hs
    have hlength := length_le_of_separatedTail hround hmoves hahead.wellFormed hrest
    rw [List.length_cons]
    omega

/-! ## Rounds that are enough -/

/-- A chain of rounds that move the cursor leads ahead. -/
theorem GoesAhead.ahead_of_moves (hp : p.GoesAhead) (hs : s.WellFormed)
    (h : ReflTransGen p.Moves s t) : s.Ahead t := by
  induction h with
  | refl => exact .refl hs
  | tail _ hlast ih =>
    obtain ⟨r, hrun, rfl, -⟩ := hlast
    exact ih.trans (hp _ r ih.wellFormed hrun)

/-- A repetition is not out of budget with more rounds than there are characters left. -/
theorem many_ne_outOfBudget (hp : p.GoesAhead) (hends : p.Terminates) (hs : s.WellFormed)
    (hrounds : s.remaining.length < rounds) : many p rounds s ≠ .fault .outOfBudget := by
  intro h
  obtain ⟨t, hmoves, ht⟩ := many_eq_fault hp hs hrounds h
  exact hends t (hp.ahead_of_moves hs hmoves).wellFormed ht

/-- A separator and an item behind it end if each of them does. -/
theorem Terminates.seqRight (hends : sep.Terminates) (hp : p.Terminates) (hsep : sep.GoesAhead) :
    (seqRight sep p).Terminates := by
  intro s hs h
  rcases seqRight_eq_fault_iff.1 h with h | ⟨r, hrun, h⟩
  · exact hends s hs h
  · exact hp r.state (hsep s r hs hrun).wellFormed h

/-- Separated items are not out of budget with more rounds than there are characters left, if no
round stands still. -/
theorem separatedBy_ne_outOfBudget (hp : p.GoesAhead) (hends : p.Terminates)
    (hround : (seqRight sep p).GoesAhead) (hrends : (seqRight sep p).Terminates)
    (hmoves : ∀ s r, s.WellFormed → seqRight sep p s = .success r → r.state.index ≠ s.index)
    (hs : s.WellFormed) (hrounds : s.remaining.length < rounds) :
    separatedBy p sep rounds s ≠ .fault .outOfBudget := by
  intro h
  rw [separatedBy_eq_turn] at h
  rcases turn_eq_fault_iff.1 h with h | ⟨r, hrun, h⟩
  · exact hends s hs h
  · have hahead := hp s r hs hrun
    have hle := hahead.length_remaining_le hs
    obtain ⟨t, hrest, ht⟩ := separatedTail_eq_fault hround (fun hs hrun => hmoves _ _ hs hrun)
      hahead.wellFormed (by omega) h
    exact hrends t (hround.ahead_of_moves hahead.wellFormed hrest).wellFormed ht

/-- Where an item behind a separator ends at the start of the separator, both have matched
nothing. -/
theorem index_eq_iff_of_seqRight (hsep : sep.GoesAhead) (hp : p.GoesAhead) {u : Success C β}
    {v : Success C α} (hs : s.WellFormed) (hu : sep s = .success u)
    (hv : p u.state = .success v) :
    v.state.index = s.index ↔ u.state.index = s.index ∧ v.state.index = u.state.index := by
  have hfirst := hsep s u hs hu
  have hsecond := hp u.state v hfirst.wellFormed hv
  have hle := hfirst.index_le
  have hle' := hsecond.index_le
  omega

/-- Repetitions of a parser that ends and never goes back come to an end. Let `r` characters be
left. Then `many` and `many1` make `r + 1` attempts at most, for each attempt comes after rounds
that have all moved the cursor, and there are no more than `r` of these. They yield `r + 1` values
at most, also where the parser may succeed without taking anything. The same number of rounds is
enough for separated items, and they are `r + 1` at most, unless a separator with an item behind it
may succeed where it has started. This happens only where both of them match nothing. -/
theorem repetitions_end (hp : p.GoesAhead) (hends : p.Terminates) (hs : s.WellFormed) :
    EndsWithin (many p) s (s.remaining.length + 1) ∧
    EndsWithin (many1 p) s (s.remaining.length + 1) ∧
    (∀ rounds values t, many p rounds s = .success { state := t, value := values } →
      values.length ≤ s.remaining.length + 1) ∧
    (∀ rounds values t, many1 p rounds s = .success { state := t, value := values } →
      values.length ≤ s.remaining.length + 1) ∧
    (∀ values t (c : Chain p s values t), (∀ i, c.Moves i) →
      values.length + 1 ≤ s.remaining.length + 1) ∧
    ∀ {β : Type} (sep : Parser C β), sep.GoesAhead → sep.Terminates →
      ((∀ t r, t.WellFormed → seqRight sep p t = .success r → r.state.index ≠ t.index) →
        EndsWithin (separatedBy p sep) s (s.remaining.length + 1) ∧
        ∀ rounds values t, separatedBy p sep rounds s = .success { state := t, value := values } →
          values.length ≤ s.remaining.length + 1) ∧
      ∀ t u v, t.WellFormed → sep t = .success u → p u.state = .success v →
        (v.state.index = t.index ↔ u.state.index = t.index ∧ v.state.index = u.state.index) := by
  have hmany := many_ne_outOfBudget hp hends hs (Nat.lt_succ_self _)
  refine ⟨endsWithin_many hmany, endsWithin_many1 (mt many1_eq_fault_iff.1 hmany), ?_, ?_, ?_, ?_⟩
  · intro rounds values t h
    exact length_le_of_many hp hs h
  · intro rounds values t h
    exact length_le_of_many hp hs (many_of_many1 h)
  · intro values t c hc
    have hlength := c.length_le_of_moves hp hs hc
    omega
  · intro β sep hsep hsepEnds
    have hround := hsep.seqRight hp
    refine ⟨fun hmoves => ⟨?_, ?_⟩, fun t u v ht hu hv => index_eq_iff_of_seqRight hsep hp ht hu hv⟩
    · apply endsWithin_separatedBy
      exact separatedBy_ne_outOfBudget hp hends hround (hsepEnds.seqRight hends hsep) hmoves hs
        (Nat.lt_succ_self _)
    · intro rounds values t h
      exact length_le_of_separatedBy hp hround hmoves hs h

/-- Whitespace goes ahead. -/
theorem goesAhead_whitespace : (whitespace : Parser C Unit).GoesAhead := by
  have hkept : (Contract.cursor C (fun _ => True) trivial).Kept whitespace :=
    Contract.kept_when_of_fits _ (fits_takeWhile Text.isWhitespace)
  exact (Contract.movesForward_of_kept hkept).goesAhead

/-- A literal goes ahead. -/
theorem goesAhead_literal (text : String) : (literal text : Parser C String).GoesAhead := by
  have hkept : (Contract.cursor C (fun _ => True) trivial).Kept (literal text) :=
    Contract.kept_literal text
  exact (Contract.movesForward_of_kept hkept).goesAhead

/-- Behind a fixed text that is not empty, the cursor is not where it was, whatever comes next. -/
theorem index_ne_of_literal_first {text : String} (htext : 0 < Text.byteLength text.toList)
    (hp : p.GoesAhead) {r : Success C α} (hs : s.WellFormed)
    (h : seqRight (literal text) p s = .success r) : r.state.index ≠ s.index := by
  rw [seqRight_apply] at h
  cases hfixed : literal text s with
  | success u =>
    rw [hfixed, Outcome.bind_success] at h
    have hindex := index_of_literal hfixed
    have hfirst := goesAhead_literal text s u hs hfixed
    have hle := (hp u.state r hfirst.wellFormed h).index_le
    omega
  | failure e => simp [hfixed] at h
  | fault c => simp [hfixed] at h

/-- Whitespace may be missing, but not the commas between. Four characters are left. -/
theorem repetitions_end_whitespace :
    EndsWithin (many whitespace) (.start " , x" ()) 5 ∧
    EndsWithin (many1 whitespace) (.start " , x" ()) 5 ∧
    EndsWithin (separatedBy whitespace (literal ",")) (.start " , x" ()) 5 ∧
    many whitespace 5 (.start " , x" ()) =
      .success { state := { text := " , x", index := 1, context := () }, value := [(), ()] } ∧
    separatedBy whitespace (literal ",") 5 (.start " , x" ()) =
      .success { state := { text := " , x", index := 3, context := () }, value := [(), ()] } := by
  have hs : (State.start " , x" ()).WellFormed := State.wellFormed_start _ _
  obtain ⟨hmany, hmany1, -, -, -, hseparated⟩ :=
    repetitions_end goesAhead_whitespace isPlain_whitespace.terminates hs
  obtain ⟨hitems, -⟩ :=
    hseparated (literal ",") (goesAhead_literal ",") (isPlain_literal ",").terminates
  obtain ⟨hcommas, -⟩ := hitems fun _ _ ht h =>
    index_ne_of_literal_first (by decide) goesAhead_whitespace ht h
  exact ⟨hmany, hmany1, hcommas, rfl, rfl⟩

end Parser

end ContextParser
