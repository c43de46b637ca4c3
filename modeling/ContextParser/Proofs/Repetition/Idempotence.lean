import ContextParser.Proofs.Readings
import ContextParser.Proofs.Repetition.Rounds

/-!
# Nothing is left to repeat

A repetition stops where another attempt would be of no use. If its last attempt has failed, it has
failed on the very state in which the repetition ends. If the last round has stood still, its state
is the one from which it has started, provided that it has touched neither the text nor the context;
so the next attempt would be this round again. In both cases the parser is idle there
(`Parser.idleAt_of_many`).

A parser that is idle gives one value at most to a repetition and does not lead anywhere. So to
repeat once more, to repeat the repetition, or to try the parser after it makes no difference to the
state (`Parser.many_idempotent`).
-/

set_option autoImplicit false

namespace ContextParser.Parser

variable {C α : Type} {p : Parser C α} {rounds : Nat} {s t : State C} {values : List α}

/-- A parser whose successes keep the text, and keep the context too where they stand still. -/
structure KeepsStill (p : Parser C α) : Prop where
  text_eq : ∀ s r, p s = .success r → r.state.text = s.text
  context_eq : ∀ s r, p s = .success r → r.state.index = s.index → r.state.context = s.context

/-- A success that stands still has not changed the state at all. -/
theorem KeepsStill.state_eq (hp : p.KeepsStill) {r : Success C α} (h : p s = .success r)
    (hstill : r.state.index = s.index) : r.state = s := by
  have htext := hp.text_eq s r h
  have hcontext := hp.context_eq s r h hstill
  cases hr : r.state with
  | mk text index context =>
    rw [hr] at htext hcontext hstill
    subst htext hcontext hstill
    rfl

/-- Another attempt from the state fails, or it succeeds in that very state. -/
def IdleAt (p : Parser C α) (t : State C) : Prop :=
  (∃ e, p t = .failure e) ∨ ∃ v, p t = .success { state := t, value := v }

/-- The induction is on the budget. The last round decides, and those before it only lead there. -/
theorem idleAt_of_many (hp : p.KeepsStill)
    (h : many p rounds s = .success { state := t, value := values }) : p.IdleAt t := by
  induction rounds generalizing s values with
  | zero => simp [many] at h
  | succ rounds ih =>
    rcases many_succ_eq_success_iff.1 h with ⟨hfails, rfl, -⟩ | ⟨v, hrun, hstill, -⟩ |
      ⟨u, v, rest, -, -, hrest, -⟩
    · exact .inl hfails
    · have hsame : t = s := hp.state_eq hrun hstill
      subst hsame
      exact .inr ⟨v, hrun⟩
    · exact ih hrest

/-! ## Repeating where the parser is idle -/

/-- The values that there are to be had where a parser is idle are none or one, and one round is
enough to find out. -/
theorem IdleAt.exists_again (h : p.IdleAt t) :
    ∃ again : List α, again.length ≤ 1 ∧
      ∀ rounds, many p (rounds + 1) t = .success { state := t, value := again } := by
  rcases h with hfails | ⟨v, hrun⟩
  · refine ⟨[], Nat.zero_le 1, fun rounds => ?_⟩
    exact many_succ_eq_success_iff.2 (.inl ⟨hfails, rfl, rfl⟩)
  · refine ⟨[v], Nat.le_refl 1, fun rounds => ?_⟩
    exact many_succ_eq_success_iff.2 (.inr (.inl ⟨v, hrun, rfl, rfl⟩))

/-- To repeat a parser where it is idle leads nowhere else. -/
theorem IdleAt.state_eq_of_many (h : p.IdleAt t) {u : State C}
    (hmany : many p rounds t = .success { state := u, value := values }) : u = t := by
  obtain ⟨again, -, hagain⟩ := h.exists_again
  cases rounds with
  | zero => simp [many] at hmany
  | succ rounds =>
    rw [hagain] at hmany
    cases hmany
    rfl

/-- Two budgets that are both enough lead to the same state. -/
theorem state_eq_of_many {rounds' : Nat} {u : State C} {values' : List α}
    (h : many p rounds s = .success { state := t, value := values })
    (h' : many p rounds' s = .success { state := u, value := values' }) : u = t := by
  obtain ⟨c, hc⟩ := exists_chain_of_many h
  obtain ⟨c', hc'⟩ := exists_chain_of_many h'
  exact (eq_of_complete hc' hc).2

/-- The outer repetition needs a second round where the inner one has moved the cursor in the first.
The second round then stands still. -/
theorem many_many_eq {again : List α}
    (h : many p rounds s = .success { state := t, value := values })
    (hagain : many p rounds t = .success { state := t, value := again }) (outer : Nat) :
    many (many p rounds) (outer + 2) s =
      .success
        { state := t, value := if t.index = s.index then [values] else [values, again] } := by
  by_cases hstill : t.index = s.index
  · rw [if_pos hstill]
    exact many_succ_eq_success_iff.2 (.inr (.inl ⟨values, h, hstill, rfl⟩))
  · have hlast : many (many p rounds) (outer + 1) t =
        .success { state := t, value := [again] } :=
      many_succ_eq_success_iff.2 (.inr (.inl ⟨again, hagain, rfl, rfl⟩))
    rw [if_neg hstill]
    exact many_succ_eq_success_iff.2 (.inr (.inr ⟨t, values, [again], h, hstill, hlast, rfl⟩))

/-- Where a repetition of a repetition ends, the inner one has ended in its first round. -/
theorem state_eq_of_many_many {inner outer : Nat} {u : State C} {lists : List (List α)}
    (hidle : p.IdleAt t) (h : many p rounds s = .success { state := t, value := values })
    (hmany : many (many p inner) outer s = .success { state := u, value := lists }) : u = t := by
  cases outer with
  | zero => simp [many] at hmany
  | succ outer =>
    rcases many_succ_eq_success_iff.1 hmany with ⟨⟨e, hfails⟩, -, -⟩ | ⟨v, hrun, -, -⟩ |
      ⟨first, v, rest, hrun, -, hrest, -⟩
    · exact absurd hfails (many_ne_failure p inner s e)
    · exact state_eq_of_many h hrun
    · have hfirst : first = t := state_eq_of_many h hrun
      subst hfirst
      -- the inner repetition is idle where its parser is
      have hinner : (many p inner).IdleAt first := by
        obtain ⟨again, -, hagain⟩ := hidle.exists_again
        cases inner with
        | zero => simp [many] at hrun
        | succ inner => exact .inr ⟨again, hagain inner⟩
      exact hinner.state_eq_of_many hrest

/-- Where `many` has ended, nothing is left to repeat. The parser fails there, or it succeeds
without any change of the state. So a second repetition ends where it has started, with one value
at most; a repetition of the repetition ends where the repetition does, whatever the two budgets;
and the parser itself, tried behind the repetition, does not lead on from there. All this is so
from every state, for parsers whose successes keep the text, and keep the context where they
stand still. -/
theorem many_idempotent (hp : p.KeepsStill)
    (h : many p rounds s = .success { state := t, value := values }) :
    ((∃ e, p t = .failure e) ∨ ∃ v, p t = .success { state := t, value := v }) ∧
    (∃ again : List α, again.length ≤ 1 ∧
      (∀ more, many p (more + 1) t = .success { state := t, value := again }) ∧
      ∀ outer, many (many p rounds) (outer + 2) s =
        .success { state := t,
                   value := if t.index = s.index then [values] else [values, again] }) ∧
    (∀ inner outer u lists,
      many (many p inner) outer s = .success { state := u, value := lists } → u = t) ∧
    ((∃ e, p t = .failure e ∧ both (many p rounds) p s = .failure e) ∨
      ∃ v, both (many p rounds) p s = .success { state := t, value := (values, v) }) := by
  have hidle := idleAt_of_many hp h
  have hrounds : ∃ fewer, rounds = fewer + 1 := by
    apply Nat.exists_eq_add_one_of_ne_zero
    intro hzero
    subst hzero
    simp [many] at h
  refine ⟨hidle, ?_, ?_, ?_⟩
  · obtain ⟨again, hlength, hagain⟩ := hidle.exists_again
    obtain ⟨fewer, hfewer⟩ := hrounds
    subst hfewer
    exact ⟨again, hlength, hagain, many_many_eq h (hagain fewer)⟩
  · intro inner outer u lists hmany
    exact state_eq_of_many_many hidle h hmany
  · unfold both
    rw [zipWith_apply, h, Outcome.bind_success]
    rcases hidle with ⟨e, hfails⟩ | ⟨v, hrun⟩
    · exact .inl ⟨e, hfails, by rw [hfails, Outcome.map_failure]⟩
    · exact .inr ⟨v, by rw [hrun, Outcome.map_success]⟩

/-- The letter a, which is counted, or nothing, which is not. -/
def countedLetter : Parser Nat String :=
  any [modifyContext (literal "a") fun n _ => n + 1, literal ""]

/-- A success with the letter has moved the cursor, and one with nothing has changed nothing. -/
theorem keepsStill_countedLetter : countedLetter.KeepsStill := by
  have hcases : ∀ s r, countedLetter s = .success r →
      r.state.text = s.text ∧ r.state.index = s.index + 1 ∨ r.state = s := by
    intro s r h
    unfold countedLetter modifyContext at h
    rw [any_pair_apply] at h
    cases hletter : literal "a" s with
    | success u =>
      have hstate := state_of_literal hletter
      rw [hletter] at h
      cases h
      left
      show u.state.text = s.text ∧ u.state.index = s.index + 1
      rw [hstate]
      exact ⟨rfl, rfl⟩
    | failure e =>
      rw [hletter] at h
      cases hnothing : literal "" s with
      | success u =>
        have hstate := state_of_literal hnothing
        rw [hnothing] at h
        cases h
        right
        rw [hstate]
        rfl
      | failure e' => simp [hnothing] at h
      | fault c => simp [hnothing] at h
    | fault c => simp [hletter] at h
  constructor
  · intro s r h
    rcases hcases s r h with ⟨htext, -⟩ | hsame
    · exact htext
    · rw [hsame]
  · intro s r h hstill
    rcases hcases s r h with ⟨-, hmoved⟩ | hsame
    · omega
    · rw [hsame]

/-- The third round stands still, and so does every round after it. Two letters have been
counted. -/
theorem many_idempotent_standstill :
    many countedLetter 3 (.start "aab" 7) =
      .success { state := { text := "aab", index := 2, context := 9 },
                 value := ["a", "a", ""] } ∧
    ∀ inner outer u lists,
      many (many countedLetter inner) outer (.start "aab" 7) =
        .success { state := u, value := lists } →
      u = { text := "aab", index := 2, context := 9 } := by
  have hrun : many countedLetter 3 (.start "aab" 7) =
      .success { state := { text := "aab", index := 2, context := 9 },
                 value := ["a", "a", ""] } := rfl
  obtain ⟨-, -, hsame, -⟩ := many_idempotent keepsStill_countedLetter hrun
  exact ⟨hrun, hsame⟩

/-- Where nothing is counted too, to repeat once more is to count once more. -/
example : many counted 1 { text := "aab", index := 2, context := 3 } =
    .success { state := { text := "aab", index := 2, context := 4 }, value := [""] } := rfl

end ContextParser.Parser
