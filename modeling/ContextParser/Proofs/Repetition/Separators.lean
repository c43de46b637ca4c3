import ContextParser.Proofs.Repetition.Rounds

/-!
# Separated items as an expression

Items with separators between them are the expression `(p (sep p)*)?`. The loop of `separatedBy` and
the one that the expression stands for are two different loops. Where the item behind a separator
fails, `separatedBy` has accepted the separator already and goes back to the state that it has kept
from before, whereas `many` gives up a round of which it has seen nothing but the failure. And a
round that stands still ends `many`, but not `separatedBy`.

So the two are the same parser if no separator with an item behind it stands still
(`separatedBy_is_expression`), and they go round by round together (`separatedTail_eq_many`). What
the rounds of `many` are is known; for separated items it follows that they end where the last item
has ended, whatever separator comes after it.
-/

set_option autoImplicit false

namespace ContextParser.Parser

variable {C α β : Type} {p : Parser C α} {sep : Parser C β} {rounds : Nat} {s t : State C}
  {values : List α}

/-- A parser that never succeeds where it has started. -/
def AlwaysMoves (p : Parser C α) : Prop :=
  ∀ s r, p s = .success r → r.state.index ≠ s.index

/-- All rounds of such a parser move the cursor, so it is left to the next attempt to end them. -/
theorem Chain.complete_iff_of_alwaysMoves (hp : p.AlwaysMoves) (c : Chain p s values t) :
    c.Complete ↔ ∃ e, p t = .failure e := by
  have hmoves : ∀ i, c.Moves i := fun i => hp _ _ (c.success i)
  constructor
  · intro hc
    rcases hc.stops with ⟨hfails, -⟩ | ⟨i, -, hstill⟩
    · exact hfails
    · exact absurd (hmoves i) hstill
  · intro hfails
    exact ⟨fun i _ => hmoves i, .inl ⟨hfails, fun i _ => hmoves i⟩⟩

/-- The two loops in step. The induction is on the budget. -/
theorem separatedTail_eq_many (hround : (seqRight sep p).AlwaysMoves) (rounds : Nat) :
    separatedTail p sep rounds = many (seqRight sep p) rounds := by
  induction rounds with
  | zero =>
    funext s
    rfl
  | succ rounds ih =>
    funext s
    rw [separatedTail, many, ih]
    cases hrun : seqRight sep p s with
    | success r =>
      have hmoved := hround s r hrun
      simp only [if_neg hmoved]
    | failure e => rfl
    | fault c => rfl

/-- One item and any number of rounds after it, or nothing at all: `(p (sep p)*)?`. -/
def separatedExpression (p : Parser C α) (sep : Parser C β) (rounds : Nat) : Parser C (List α) :=
  map (opt (zipWith p (many (seqRight sep p) rounds) List.cons)) fun items => items.getD []

/-- Separated items are the expression `(p (sep p)*)?` under every budget. -/
theorem separatedBy_eq_expression (hround : (seqRight sep p).AlwaysMoves) (rounds : Nat) :
    separatedBy p sep rounds = separatedExpression p sep rounds := by
  funext s
  unfold separatedBy separatedExpression map opt zipWith
  rw [separatedTail_eq_many hround]
  cases p s with
  | failure e => rfl
  | fault c => rfl
  | success first =>
    dsimp only [Outcome.bind_success]
    cases hrest : many (seqRight sep p) rounds first.state with
    | success r => rfl
    | failure e => exact absurd hrest (many_ne_failure _ _ _ e)
    | fault c => rfl

/-- The items of a success are none, or a first one and those of a chain of rounds. Behind the last
item there is no separator, or there is one without an item behind it. -/
theorem separatedBy_success_iff (hround : (seqRight sep p).AlwaysMoves) :
    (∃ rounds, separatedBy p sep rounds s = .success { state := t, value := values }) ↔
      ((∃ e, p s = .failure e) ∧ t = s ∧ values = []) ∨
      ∃ first rest, p s = .success first ∧ values = first.value :: rest ∧
        Nonempty (Chain (seqRight sep p) first.state rest t) ∧
        ((∃ e, sep t = .failure e) ∨ ∃ r e, sep t = .success r ∧ p r.state = .failure e) := by
  have hstops : (∃ e, seqRight sep p t = .failure e) ↔
      (∃ e, sep t = .failure e) ∨ ∃ r e, sep t = .success r ∧ p r.state = .failure e := by
    simp only [seqRight_eq_failure_iff, exists_or]
    rw [exists_comm (α := Failure C)]
  simp only [separatedBy_eq_turn, turn_eq_success_iff, separatedTail_eq_many hround]
  constructor
  · rintro ⟨rounds, hnone | ⟨first, rest, hrun, hrest, rfl⟩⟩
    · exact .inl hnone
    · obtain ⟨c, hc⟩ := exists_chain_of_many hrest
      have hfails := (c.complete_iff_of_alwaysMoves hround).1 hc
      exact .inr ⟨first, rest, hrun, rfl, ⟨c⟩, hstops.1 hfails⟩
  · rintro (hnone | ⟨first, rest, hrun, rfl, ⟨c⟩, hend⟩)
    · exact ⟨0, .inl hnone⟩
    · have hc := (c.complete_iff_of_alwaysMoves hround).2 (hstops.2 hend)
      have hrest := many_of_chain c hc (Nat.lt_succ_self _)
      exact ⟨rest.length + 1, .inr ⟨first, rest, hrun, hrest, rfl⟩⟩

/-- Separated items are the expression `(p (sep p)*)?`, from every state and under every budget, if
no separator with an item behind it stands still. They are never a failure. They end where the last
item has ended: neither a separator without an item behind it nor the item that has failed there
leaves anything, be it in the cursor or in the context. The items are those of the loop that starts
with the first of them and keeps the state before a separator until the item has succeeded. -/
theorem separatedBy_is_expression (hround : (seqRight sep p).AlwaysMoves) (s : State C) :
    (∀ rounds, separatedBy p sep rounds s = separatedExpression p sep rounds s) ∧
    (∀ rounds e, separatedBy p sep rounds s ≠ .failure e) ∧
    (∀ values t,
      (∃ rounds, separatedBy p sep rounds s = .success { state := t, value := values }) ↔
        ((∃ e, p s = .failure e) ∧ t = s ∧ values = []) ∨
        ∃ first rest, p s = .success first ∧ values = first.value :: rest ∧
          Nonempty (Chain (seqRight sep p) first.state rest t) ∧
          ((∃ e, sep t = .failure e) ∨ ∃ r e, sep t = .success r ∧ p r.state = .failure e)) ∧
    ∀ first, p s = .success first → ∀ rounds,
      separatedBy p sep rounds s = separatedFrom p sep rounds [first.value] first.state := by
  refine ⟨?_, fun rounds => separatedBy_ne_failure p sep rounds s, ?_, ?_⟩
  · intro rounds
    rw [separatedBy_eq_expression hround]
  · intro values t
    exact separatedBy_success_iff hround
  · intro first h rounds
    rw [separatedBy_eq_separatedFrom, h]

/-- A fixed text that is noted in the context. -/
def noted (text : String) (cost : Nat) : Parser Nat String :=
  modifyContext (literal text) fun n _ => n + cost

/-- A text that is noted is consumed like any fixed text. -/
theorem index_of_noted {text : String} {cost : Nat} {s : State Nat} {r : Success Nat String}
    (h : noted text cost s = .success r) :
    r.state.index = s.index + Text.byteLength text.toList := by
  obtain ⟨r', hliteral, rfl⟩ := Outcome.map_eq_success_iff.1 h
  have hindex := index_of_literal hliteral
  exact hindex

/-- A comma with an item behind it moves the cursor. -/
theorem alwaysMoves_noted : (seqRight (noted "," 10) (noted "a" 1)).AlwaysMoves := by
  intro s r h
  rw [seqRight_apply] at h
  cases hcomma : noted "," 10 s with
  | success u =>
    rw [hcomma, Outcome.bind_success] at h
    have hfirst := index_of_noted hcomma
    have hsecond := index_of_noted h
    have hlength : Text.byteLength ",".toList = 1 := rfl
    omega
  | failure e => simp [hcomma] at h
  | fault c => simp [hcomma] at h

/-- Two items and a separator too many. What that has cost is not in the context. -/
theorem separatedBy_is_expression_trailing :
    (∀ rounds, separatedBy (noted "a" 1) (noted "," 10) rounds (.start "a,a,b" 0) =
      separatedExpression (noted "a" 1) (noted "," 10) rounds (.start "a,a,b" 0)) ∧
    ∃ rounds, separatedBy (noted "a" 1) (noted "," 10) rounds (.start "a,a,b" 0) =
      .success
        { state := { text := "a,a,b", index := 3, context := 12 }, value := ["a", "a"] } := by
  obtain ⟨hsame, -, hmeaning, -⟩ := separatedBy_is_expression alwaysMoves_noted (.start "a,a,b" 0)
  refine ⟨hsame, (hmeaning _ _).2 (.inr ?_)⟩
  have hround : seqRight (noted "," 10) (noted "a" 1)
        { text := "a,a,b", index := 1, context := 1 } =
      .success { state := { text := "a,a,b", index := 3, context := 12 }, value := "a" } := rfl
  exact ⟨_, ["a"], rfl, rfl, ⟨.cons hround (.nil _ _)⟩, .inr ⟨_, _, rfl, rfl⟩⟩

end ContextParser.Parser
