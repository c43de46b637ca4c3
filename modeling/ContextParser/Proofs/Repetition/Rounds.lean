import Mathlib.Data.Fin.Tuple.Basic
import Mathlib.Data.List.Basic
import ContextParser.Proofs.Obstacles

/-!
# The rounds of a repetition

The rounds of a repetition are a chain of successes: each attempt starts from the state that the one
before has left, with the context that is in it. In such a chain all rounds but the last have moved
the cursor, and after the last one there is a reason to stop: the next attempt fails, or the last
round has not moved the cursor. From every state there is at most one chain like that, and `many`
succeeds exactly if there is one, with its values and its last state (`many_follows_chain`). What
the attempt at the end has done before it failed is not in the chain.

`many1` makes its first attempt by itself and then goes on with the loop of `many`. It treats a
first round that stands still in the same way, so the two differ in nothing but the failure of the
first attempt (`many1_agrees_with_many`).
-/

set_option autoImplicit false

namespace ContextParser.Parser

variable {C α : Type} {p : Parser C α} {rounds : Nat} {s t u : State C} {v : α} {values : List α}

/-! ## One round -/

/-- What the first round of a successful repetition may be: a failure, which ends it with nothing; a
success that stands still, which ends it with one value; or a success that moves the cursor. -/
theorem many_succ_eq_success_iff :
    many p (rounds + 1) s = .success { state := t, value := values } ↔
      ((∃ e, p s = .failure e) ∧ t = s ∧ values = []) ∨
      (∃ v, p s = .success { state := t, value := v } ∧ t.index = s.index ∧ values = [v]) ∨
      ∃ u v rest, p s = .success { state := u, value := v } ∧ u.index ≠ s.index ∧
        many p rounds u = .success { state := t, value := rest } ∧ values = v :: rest := by
  rw [many]
  constructor
  · intro h
    cases hrun : p s with
    | failure e =>
      rw [hrun] at h
      cases h
      exact .inl ⟨⟨e, rfl⟩, rfl, rfl⟩
    | fault c => simp [hrun] at h
    | success r =>
      obtain ⟨u, v⟩ := r
      simp only [hrun] at h
      by_cases hstill : u.index = s.index
      · rw [if_pos hstill] at h
        cases h
        exact .inr (.inl ⟨v, rfl, hstill, rfl⟩)
      · rw [if_neg hstill, Outcome.map_eq_success_iff] at h
        obtain ⟨⟨t, rest⟩, hrest, hsame⟩ := h
        cases hsame
        exact .inr (.inr ⟨u, v, rest, rfl, hstill, hrest, rfl⟩)
  · rintro (⟨⟨e, hrun⟩, rfl, rfl⟩ | ⟨v, hrun, hstill, rfl⟩ | ⟨u, v, rest, hrun, hmoved, hrest, rfl⟩)
    · rw [hrun]
    · simp only [hrun, if_pos hstill, Success.map]
    · simp only [hrun, if_neg hmoved, hrest, Outcome.map_success, Success.map]

/-- A repetition whose first round has moved the cursor is this round and the repetition of the
others in sequence. -/
theorem many_succ_of_moved {r : Success C α} (h : p s = .success r)
    (hmoved : r.state.index ≠ s.index) (rounds : Nat) :
    many p (rounds + 1) s = zipWith p (many p rounds) (fun v vs => v :: vs) s := by
  rw [many, zipWith_apply, h]
  exact if_neg hmoved

/-! ## Chains of rounds -/

/-- Successes of a parser one after the other, which lead from one state to another and yield the
given values. -/
@[ext]
structure Chain (p : Parser C α) (s : State C) (values : List α) (t : State C) where
  /-- The states in which the attempts start, and the one that the last of them has left. -/
  state : Fin (values.length + 1) → State C
  first : state 0 = s
  last : state (Fin.last values.length) = t
  success : ∀ i : Fin values.length,
    p (state i.castSucc) = .success { state := state i.succ, value := values.get i }

namespace Chain

/-- A round moves the cursor. -/
def Moves (c : Chain p s values t) (i : Fin values.length) : Prop :=
  (c.state i.succ).index ≠ (c.state i.castSucc).index

/-- All rounds before the last one move the cursor, and after the last one there is a reason to
stop: the next attempt fails although the last round, if there is one, has moved the cursor, or the
last round has not moved it. -/
structure Complete (c : Chain p s values t) : Prop where
  earlier : ∀ i : Fin values.length, i.val + 1 < values.length → c.Moves i
  stops :
    ((∃ e, p t = .failure e) ∧
      ∀ i : Fin values.length, i.val + 1 = values.length → c.Moves i) ∨
    ∃ i : Fin values.length, i.val + 1 = values.length ∧ ¬c.Moves i

/-- No rounds at all. -/
def nil (p : Parser C α) (s : State C) : Chain p s [] s where
  state _ := s
  first := rfl
  last := rfl
  success i := i.elim0

/-- A round in front of the others. -/
def cons (h : p s = .success { state := u, value := v }) (c : Chain p u values t) :
    Chain p s (v :: values) t where
  state := Fin.cons s c.state
  first := rfl
  last := c.last
  success := by
    intro i
    cases i using Fin.cases with
    | zero =>
      show p s = .success { state := c.state 0, value := v }
      rw [c.first, h]
    | succ i => exact c.success i

/-- The rounds after the first one. -/
def tail (c : Chain p s (v :: values) t) : Chain p (c.state 1) values t where
  state i := c.state i.succ
  first := rfl
  last := c.last
  success i := c.success i.succ

/-- The first round. -/
theorem head (c : Chain p s (v :: values) t) :
    p s = .success { state := c.state 1, value := v } := by
  have h := c.success 0
  rw [Fin.castSucc_zero, c.first] at h
  exact h

/-- The first round moves the cursor away from where the chain starts. -/
theorem moves_zero_iff (c : Chain p s (v :: values) t) :
    c.Moves 0 ↔ (c.state 1).index ≠ s.index := by
  show (c.state 1).index ≠ (c.state 0).index ↔ _
  rw [c.first]

/-- A chain without rounds ends where it starts. -/
theorem eq_of_nil (c : Chain p s [] t) : t = s :=
  c.last.symm.trans c.first

/-- The states of a chain follow from the one in which it starts. -/
instance : Subsingleton (Chain p s values t) where
  allEq c d := by
    ext1
    funext i
    induction i using Fin.induction with
    | zero => rw [c.first, d.first]
    | succ i ih =>
      have hc := c.success i
      rw [ih, d.success i] at hc
      exact (congrArg Success.state (Outcome.success.inj hc)).symm

/-- Where the first attempt fails, no rounds are complete. -/
theorem complete_nil {e : Failure C} (h : p s = .failure e) : (nil p s).Complete where
  earlier i := i.elim0
  stops := .inl ⟨⟨e, h⟩, fun i => i.elim0⟩

/-- One round that stands still is complete. -/
theorem complete_single (h : p s = .success { state := t, value := v })
    (hstill : t.index = s.index) : (cons h (nil p t)).Complete where
  earlier i hi := by
    have hlt : i.val < 1 := i.isLt
    have hle : i.val + 1 < 1 := hi
    omega
  stops := .inr ⟨0, rfl, fun hmoves => hmoves hstill⟩

/-- A round that moves the cursor may be put in front of a complete chain. -/
theorem Complete.cons {c : Chain p u values t} (hc : c.Complete)
    (h : p s = .success { state := u, value := v }) (hmoved : u.index ≠ s.index) :
    (Chain.cons h c).Complete where
  earlier i hi := by
    cases i using Fin.cases with
    | zero =>
      show (c.state 0).index ≠ s.index
      rwa [c.first]
    | succ i => exact hc.earlier i (Nat.lt_of_succ_lt_succ hi)
  stops := by
    rcases hc.stops with ⟨hfails, hlast⟩ | ⟨i, hi, hstill⟩
    · refine .inl ⟨hfails, fun i hi => ?_⟩
      cases i using Fin.cases with
      | zero =>
        show (c.state 0).index ≠ s.index
        rwa [c.first]
      | succ i => exact hlast i (Nat.succ.inj hi)
    · exact .inr ⟨i.succ, congrArg Nat.succ hi, hstill⟩

/-- Behind a first round that has moved the cursor, the others are complete. -/
theorem Complete.tail {c : Chain p s (v :: values) t} (hc : c.Complete) (hmoved : c.Moves 0) :
    c.tail.Complete where
  earlier i hi := hc.earlier i.succ (Nat.succ_lt_succ hi)
  stops := by
    rcases hc.stops with ⟨hfails, hlast⟩ | ⟨i, hi, hstill⟩
    · exact .inl ⟨hfails, fun i hi => hlast i.succ (congrArg Nat.succ hi)⟩
    · cases i using Fin.cases with
      | zero => exact absurd hmoved hstill
      | succ i => exact .inr ⟨i, Nat.succ.inj hi, hstill⟩

/-- Only the last round of a complete chain may stand still. -/
theorem Complete.eq_nil {c : Chain p s (v :: values) t} (hc : c.Complete) (hstill : ¬c.Moves 0) :
    values = [] := by
  cases values with
  | nil => rfl
  | cons w ws =>
    have hfirst : (0 : Nat) + 1 < (v :: w :: ws).length := by simp
    exact absurd (hc.earlier 0 hfirst) hstill

end Chain

/-! ## The repetition of all rounds -/

/-- The induction is on the budget. What the first round has done is put in front of the chain that
is there for the others. -/
theorem exists_chain_of_many (h : many p rounds s = .success { state := t, value := values }) :
    ∃ c : Chain p s values t, c.Complete := by
  induction rounds generalizing s values with
  | zero => simp [many] at h
  | succ rounds ih =>
    rcases many_succ_eq_success_iff.1 h with ⟨⟨e, hrun⟩, rfl, rfl⟩ | ⟨v, hrun, hstill, rfl⟩ |
      ⟨u, v, rest, hrun, hmoved, hrest, rfl⟩
    · exact ⟨.nil p t, Chain.complete_nil hrun⟩
    · exact ⟨.cons hrun (.nil p t), Chain.complete_single hrun hstill⟩
    · obtain ⟨c, hc⟩ := ih hrest
      exact ⟨.cons hrun c, hc.cons hrun hmoved⟩

/-- The induction is on the values. There is one attempt for each of them, and one more where the
repetition ends with a failure. -/
theorem many_of_chain (c : Chain p s values t) (hc : c.Complete)
    (hrounds : values.length < rounds) :
    many p rounds s = .success { state := t, value := values } := by
  induction values generalizing s rounds with
  | nil =>
    obtain ⟨rounds, rfl⟩ := Nat.exists_eq_add_one_of_ne_zero (Nat.ne_of_gt hrounds)
    have hstate := c.eq_of_nil
    subst hstate
    rcases hc.stops with ⟨hfails, -⟩ | ⟨i, -, -⟩
    · exact many_succ_eq_success_iff.2 (.inl ⟨hfails, rfl, rfl⟩)
    · exact i.elim0
  | cons v values ih =>
    obtain ⟨rounds, rfl⟩ := Nat.exists_eq_add_one_of_ne_zero (Nat.ne_zero_of_lt hrounds)
    by_cases hmoved : c.Moves 0
    · have hrest := ih c.tail (hc.tail hmoved) (Nat.lt_of_succ_lt_succ hrounds)
      have hindex := c.moves_zero_iff.1 hmoved
      exact many_succ_eq_success_iff.2 (.inr (.inr ⟨_, v, values, c.head, hindex, hrest, rfl⟩))
    · obtain rfl := hc.eq_nil hmoved
      have hlast : c.state 1 = t := c.last
      have hstill : (c.state 1).index = s.index := not_not.1 (mt c.moves_zero_iff.2 hmoved)
      have hrun := c.head
      rw [hlast] at hrun hstill
      exact many_succ_eq_success_iff.2 (.inr (.inl ⟨v, hrun, hstill, rfl⟩))

/-- No two complete chains start in the same state. -/
theorem eq_of_complete {values' : List α} {t' : State C} {c : Chain p s values t}
    {c' : Chain p s values' t'} (hc : c.Complete) (hc' : c'.Complete) :
    values = values' ∧ t = t' := by
  have hrun := many_of_chain c hc (Nat.lt_succ_of_le (Nat.le_max_left _ values'.length))
  have hrun' := many_of_chain c' hc' (Nat.lt_succ_of_le (Nat.le_max_right values.length _))
  rw [hrun] at hrun'
  cases hrun'
  exact ⟨rfl, rfl⟩

/-- What `many` means, of every parser and from every state. It never fails. It ends with certain
values in a certain state exactly if a complete chain leads there; that chain is the only one from
the state, and more rounds than it has values are always enough. -/
theorem many_follows_chain (p : Parser C α) (s : State C) :
    (∀ rounds e, many p rounds s ≠ .failure e) ∧
    (∀ values t,
      (∃ rounds, many p rounds s = .success { state := t, value := values }) ↔
        ∃! c : Chain p s values t, c.Complete) ∧
    (∀ values t (c : Chain p s values t), c.Complete → ∀ rounds, values.length < rounds →
      many p rounds s = .success { state := t, value := values }) ∧
    ∀ values t values' t' (c : Chain p s values t) (c' : Chain p s values' t'),
      c.Complete → c'.Complete → values = values' ∧ t = t' := by
  refine ⟨fun rounds => many_ne_failure p rounds s, ?_, ?_, ?_⟩
  · intro values t
    constructor
    · rintro ⟨rounds, h⟩
      obtain ⟨c, hc⟩ := exists_chain_of_many h
      exact ⟨c, hc, fun d _ => Subsingleton.elim d c⟩
    · rintro ⟨c, hc, -⟩
      exact ⟨values.length + 1, many_of_chain c hc (Nat.lt_succ_self _)⟩
  · intro values t c hc rounds hrounds
    exact many_of_chain c hc hrounds
  · intro values t values' t' c c' hc hc'
    exact eq_of_complete hc hc'

/-- The letter a if it is there, else nothing; the context counts how often. -/
def counted : Parser Nat String :=
  modifyContext (any [literal "a", literal ""]) fun n _ => n + 1

/-- The third round stands still. Its value is the last one, and it has been counted. -/
theorem many_follows_chain_standstill :
    ∀ rounds, 3 < rounds →
      many counted rounds (.start "aab" 0) =
        .success { state := { text := "aab", index := 2, context := 3 },
                   value := ["a", "a", ""] } := by
  have hfirst : counted (.start "aab" 0) =
      .success { state := { text := "aab", index := 1, context := 1 }, value := "a" } := rfl
  have hsecond : counted { text := "aab", index := 1, context := 1 } =
      .success { state := { text := "aab", index := 2, context := 2 }, value := "a" } := rfl
  have hthird : counted { text := "aab", index := 2, context := 2 } =
      .success { state := { text := "aab", index := 2, context := 3 }, value := "" } := rfl
  have hlast := (Chain.complete_single hthird rfl).cons hsecond (by decide)
  obtain ⟨-, -, hmany, -⟩ := many_follows_chain counted (.start "aab" 0)
  exact hmany _ _ _ (hlast.cons hfirst (by decide))

/-! ## At least one round -/

/-- Where the first attempt succeeds, both repetitions come into the same loop with the same values,
or stop for the same reason. -/
theorem many1_eq_many {r : Success C α} (h : p s = .success r) (rounds : Nat) :
    many1 p rounds s = many p rounds s := by
  cases rounds with
  | zero => rfl
  | succ rounds =>
    rw [many1_eq_manyFrom, many_eq_manyFrom, manyFrom, h]
    simp only [Outcome.bind_success, List.nil_append]

/-- A repetition that has to succeed once fails like its first attempt. -/
theorem many1_of_failure {e : Failure C} (h : p s = .failure e) (rounds : Nat) :
    many1 p (rounds + 1) s = .failure e := by
  rw [many1_eq_manyFrom, h, Outcome.bind_failure]

/-- Where a repetition that has to succeed once does so, `many` has the same success. -/
theorem many_of_many1 {r : Success C (List α)} (h : many1 p rounds s = .success r) :
    many p rounds s = .success r := by
  cases hrun : p s with
  | success first => rwa [← many1_eq_many hrun]
  | failure e =>
    cases rounds with
    | zero => cases h
    | succ rounds => simp [many1_of_failure hrun] at h
  | fault c =>
    cases rounds with
    | zero => cases h
    | succ rounds => simp [many1, hrun] at h

/-- The first value of a repetition is that of the first attempt. -/
theorem head?_of_many {r : Success C α} (h : p s = .success r)
    (hmany : many p rounds s = .success { state := t, value := values }) :
    values.head? = some r.value := by
  cases rounds with
  | zero => simp [many] at hmany
  | succ rounds =>
    rcases many_succ_eq_success_iff.1 hmany with ⟨⟨e, hrun⟩, -, -⟩ | ⟨v, hrun, -, rfl⟩ |
      ⟨u, v, rest, hrun, -, -, rfl⟩
    · simp [h] at hrun
    · cases h.symm.trans hrun
      rfl
    · cases h.symm.trans hrun
      rfl

/-- `many1` is `many` but for the failure of the first attempt, which it passes on as it is. Where
that attempt succeeds, the two have the same outcome under every budget, whether or not the cursor
has moved, and a success begins with the value of that attempt. Faults are the same in any case, so
one loop runs out of all budgets exactly if the other does. Both are entries to one loop, which may
have collected any values before: `many` starts it with none, `many1` with that of a first attempt
which has moved the cursor. -/
theorem many1_agrees_with_many (p : Parser C α) (s : State C) :
    (∀ e, p s = .failure e → ∀ rounds, many1 p (rounds + 1) s = .failure e) ∧
    (∀ r, p s = .success r → ∀ rounds, many1 p rounds s = many p rounds s ∧
      ∀ values t, many1 p rounds s = .success { state := t, value := values } →
        values.head? = some r.value) ∧
    (∀ rounds c, many1 p rounds s = .fault c ↔ many p rounds s = .fault c) ∧
    (∀ rounds values, manyFrom p rounds values s = (many p rounds s).map (·.map (values ++ ·))) ∧
    ∀ rounds, many1 p (rounds + 1) s =
      (p s).bind fun r =>
        if r.state.index = s.index then .success (r.map fun v => [v])
        else manyFrom p rounds [r.value] r.state := by
  refine ⟨fun e h => many1_of_failure h, ?_, fun rounds c => many1_eq_fault_iff,
    fun rounds values => manyFrom_eq p rounds values s, fun rounds => many1_eq_manyFrom p rounds s⟩
  intro r h rounds
  have hsame := many1_eq_many h rounds
  refine ⟨hsame, fun values t hmany => ?_⟩
  rw [hsame] at hmany
  exact head?_of_many h hmany

/-- The first round stands still for both repetitions, and both have counted it. -/
theorem many1_agrees_with_many_standstill :
    (∀ rounds, many1 counted rounds (.start "b" 0) = many counted rounds (.start "b" 0)) ∧
    many1 counted 1 (.start "b" 0) =
      .success { state := { text := "b", index := 0, context := 1 }, value := [""] } ∧
    ∀ rounds, many1 (literal "a") (rounds + 1) (.start "b" 0) =
      .failure { kind := .mismatch, message := "Expected \"a\"",
                 state := { text := "b", index := 0, context := 0 } } := by
  have hfirst : counted (.start "b" 0) =
      .success { state := { text := "b", index := 0, context := 1 }, value := "" } := rfl
  obtain ⟨-, hsuccess, -⟩ := many1_agrees_with_many counted (.start "b" 0)
  obtain ⟨hfailure, -⟩ := many1_agrees_with_many (literal "a") (.start "b" 0)
  refine ⟨fun rounds => (hsuccess _ hfirst rounds).1, ?_, fun rounds => hfailure _ rfl rounds⟩
  rw [(hsuccess _ hfirst 1).1]
  rfl

end ContextParser.Parser
