import ContextParser.Parser.Text
import ContextParser.Proofs.Simulation.Parser

/-!
# Recovery from failed attempts

Two parsers are equivalent in success when they succeed on the same states, with the same value and
the same state to go on from. What they do to the cursor and the context on the way to a failure,
and what they then report, is left open. The combinators that recover from failures cannot tell such
parsers apart: `opt`, `many` and `separatedBy` give the same results for both, and a choice that
fails shows nothing of its alternatives but their messages
(`recovery_ignores_failed_attempts`).

Equivalence is stated for every budget of rounds, so it holds of endless loops too: one loop runs
out of every budget exactly when the other does.
-/

set_option autoImplicit false

namespace ContextParser.Parser

variable {C α β : Type}

/-- Wherever one of the parsers succeeds, so does the other, with the same value and state. Failures
may differ in all that they report. -/
def SuccessEquiv (p p' : Parser C α) : Prop :=
  ∀ s, (∃ r, p s = .success r ∧ p' s = .success r) ∨
    (∃ e e', p s = .failure e ∧ p' s = .failure e') ∨
    ∃ c, p s = .fault c ∧ p' s = .fault c

variable {p p' : Parser C α} {sep sep' : Parser C β}

/-- Every parser is equivalent to itself. -/
theorem SuccessEquiv.refl (p : Parser C α) : p.SuccessEquiv p := by
  intro s
  cases h : p s with
  | success r => exact .inl ⟨r, rfl, rfl⟩
  | failure e => exact .inr (.inl ⟨e, e, rfl, rfl⟩)
  | fault c => exact .inr (.inr ⟨c, rfl, rfl⟩)

/-- A sequence of equivalent parsers fails at the same stage for both, if it fails. -/
theorem SuccessEquiv.seqRight (hsep : sep.SuccessEquiv sep') (hp : p.SuccessEquiv p') :
    (seqRight sep p).SuccessEquiv (seqRight sep' p') := by
  intro s
  rw [seqRight_apply, seqRight_apply]
  obtain ⟨r, h, h'⟩ | ⟨e, e', h, h'⟩ | ⟨c, h, h'⟩ := hsep s
  · rw [h, h']
    exact hp r.state
  · exact .inr (.inl ⟨e, e', by rw [h]; rfl, by rw [h']; rfl⟩)
  · exact .inr (.inr ⟨c, by rw [h]; rfl, by rw [h']; rfl⟩)

/-- An optional parser shows nothing of a failure. -/
theorem opt_congr (hp : p.SuccessEquiv p') : opt p = opt p' := by
  funext s
  obtain ⟨r, h, h'⟩ | ⟨e, e', h, h'⟩ | ⟨c, h, h'⟩ := hp s <;> rw [opt, opt, h, h']

/-- Each round of the loop starts from the same state, and the one that fails ends both loops with
the state before it. -/
theorem many_congr (hp : p.SuccessEquiv p') (rounds : Nat) : many p rounds = many p' rounds := by
  induction rounds with
  | zero => rfl
  | succ rounds ih =>
    funext s
    rw [many, many, ih]
    obtain ⟨r, h, h'⟩ | ⟨e, e', h, h'⟩ | ⟨c, h, h'⟩ := hp s <;> rw [h, h']

/-- A separator that has already succeeded is given up together with the item that fails after
it. -/
theorem separatedTail_congr (hp : p.SuccessEquiv p') (hsep : sep.SuccessEquiv sep')
    (rounds : Nat) : separatedTail p sep rounds = separatedTail p' sep' rounds := by
  induction rounds with
  | zero => rfl
  | succ rounds ih =>
    funext s
    rw [separatedTail, separatedTail, ih]
    obtain ⟨r, h, h'⟩ | ⟨e, e', h, h'⟩ | ⟨c, h, h'⟩ := hsep.seqRight hp s <;> rw [h, h']

/-- Separated items show nothing of the attempt that ended them, be it at the separator or at the
item behind it. -/
theorem separatedBy_congr (hp : p.SuccessEquiv p') (hsep : sep.SuccessEquiv sep')
    (rounds : Nat) : separatedBy p sep rounds = separatedBy p' sep' rounds := by
  funext s
  rw [separatedBy, separatedBy, separatedTail_congr hp hsep]
  obtain ⟨r, h, h'⟩ | ⟨e, e', h, h'⟩ | ⟨c, h, h'⟩ := hp s <;> rw [h, h']

/-- The first attempt of `many1` is the only one whose failure is seen. -/
theorem SuccessEquiv.many1 (hp : p.SuccessEquiv p') (rounds : Nat) :
    (many1 p rounds).SuccessEquiv (many1 p' rounds) := by
  cases rounds with
  | zero => exact SuccessEquiv.refl _
  | succ rounds =>
    intro s
    have hrefl := SuccessEquiv.refl (Parser.many1 p (rounds + 1)) s
    obtain ⟨r, h, h'⟩ | ⟨e, e', h, h'⟩ | ⟨c, h, h'⟩ := hp s
    · have hsame : Parser.many1 p (rounds + 1) s = Parser.many1 p' (rounds + 1) s := by
        rw [Parser.many1, Parser.many1, h, h', many_congr hp]
      rw [← hsame]
      exact hrefl
    · exact .inr (.inl ⟨e, e', by simp [Parser.many1, h], by simp [Parser.many1, h']⟩)
    · exact .inr (.inr ⟨c, by simp [Parser.many1, h], by simp [Parser.many1, h']⟩)

/-- The alternatives of two choices stop at the same place. -/
theorem SuccessEquiv.any {ps ps' : List (Parser C α)} (hps : List.Forall₂ SuccessEquiv ps ps') :
    (any ps).SuccessEquiv (any ps') := by
  intro s
  unfold Parser.any
  -- the messages differ, so the claim is carried for every way to make failures of them
  suffices hfirst : ∀ f f' : List String → Failure C,
      (∃ r, (firstSuccess s ps).mapFailure f = .success r ∧
        (firstSuccess s ps').mapFailure f' = .success r) ∨
      (∃ e e', (firstSuccess s ps).mapFailure f = .failure e ∧
        (firstSuccess s ps').mapFailure f' = .failure e') ∨
      ∃ c, (firstSuccess s ps).mapFailure f = .fault c ∧
        (firstSuccess s ps').mapFailure f' = .fault c from hfirst _ _
  induction hps with
  | nil => exact fun f f' => .inr (.inl ⟨f [], f' [], rfl, rfl⟩)
  | cons hp _ ih =>
    intro f f'
    rw [firstSuccess, firstSuccess]
    obtain ⟨r, h, h'⟩ | ⟨e, e', h, h'⟩ | ⟨c, h, h'⟩ := hp s
    · exact .inl ⟨r, by rw [h]; rfl, by rw [h']; rfl⟩
    · rw [h, h']
      simp only [Outcome.mapFailure_mapFailure]
      exact ih _ _
    · exact .inr (.inr ⟨c, by rw [h]; rfl, by rw [h']; rfl⟩)

/-- Without a winner, only the messages of the alternatives are left of them. -/
theorem any_of_forall_failure {s : State C} {ps : List (Parser C α)} {es : List (Failure C)}
    (h : List.Forall₂ (fun p e => p s = .failure e) ps es) :
    any ps s = .failure (.exhausted (es.map (·.message)) s) := by
  have hfirst : firstSuccess s ps = .failure (es.map (·.message)) := by
    induction h with
    | nil => rfl
    | cons hp _ ih =>
      rw [firstSuccess, hp]
      simp [ih]
  rw [any, hfirst]
  rfl

/-- What a failed attempt has done leaves no trace in what recovers from it. Of parsers that are
equivalent in success, `opt`, `many` and `separatedBy` make the same parser, and `many1` and both
forms of choice make parsers that are equivalent in success again. A choice whose alternatives all
fail reports their messages in order, at the very state from which it started. -/
theorem recovery_ignores_failed_attempts (hp : p.SuccessEquiv p') (hsep : sep.SuccessEquiv sep') :
    opt p = opt p' ∧
    (∀ rounds, many p rounds = many p' rounds) ∧
    (∀ rounds, separatedBy p sep rounds = separatedBy p' sep' rounds) ∧
    (∀ rounds, (many1 p rounds).SuccessEquiv (many1 p' rounds)) ∧
    (∀ ps ps' : List (Parser C α), List.Forall₂ SuccessEquiv ps ps' →
      (any ps).SuccessEquiv (any ps')) ∧
    (∀ (n : Nat) (ps ps' : Fin n → Parser C α), (∀ i, (ps i).SuccessEquiv (ps' i)) →
      (anyTuple ps).SuccessEquiv (anyTuple ps')) ∧
    (∀ (s : State C) (ps : List (Parser C α)) (es : List (Failure C)),
      List.Forall₂ (fun p e => p s = .failure e) ps es →
        any ps s = .failure
          { kind := .exhaustedAlternatives, message := "\n".intercalate (es.map (·.message)),
            state := s }) ∧
    ∀ (s : State C) (n : Nat) (ps : Fin n → Parser C α) (es : Fin n → Failure C),
      (∀ i, ps i s = .failure (es i)) →
        anyTuple ps s = .failure
          { kind := .exhaustedAlternatives,
            message := "\n".intercalate (List.ofFn fun i => (es i).message), state := s } := by
  refine ⟨opt_congr hp, many_congr hp, separatedBy_congr hp hsep, hp.many1, ?_, ?_, ?_, ?_⟩
  · exact fun _ _ hps => SuccessEquiv.any hps
  · intro n ps ps' hps
    rw [anyTuple_eq_any, anyTuple_eq_any]
    exact SuccessEquiv.any (forall₂_ofFn hps)
  · exact fun _ _ _ h => any_of_forall_failure h
  · intro s n ps es h
    rw [anyTuple_eq_any, any_of_forall_failure (forall₂_ofFn h), List.map_ofFn]
    rfl

/-- Run a parser with its context changed, give that up, and run the parser as it is. -/
def detour (p : Parser C α) (f : C → α → C) : Parser C α :=
  any [bind (modifyContext p f) fun _ => fail "Gave up", p]

/-- A detour that is given up shows only in the failures. -/
theorem SuccessEquiv.detour (p : Parser C α) (f : C → α → C) :
    p.SuccessEquiv (Parser.detour p f) := by
  intro s
  unfold Parser.detour Parser.any Parser.bind modifyContext
  cases h : p s with
  | success r => exact .inl ⟨r, rfl, by simp [firstSuccess, h, fail]⟩
  | failure e => exact .inr (.inl ⟨e, _, rfl, by simp [firstSuccess, h]; rfl⟩)
  | fault c => exact .inr (.inr ⟨c, rfl, by simp [firstSuccess, h]⟩)

/-- Items and separators that count in the context before they give up, with changes that would show
if any of them lasted. -/
theorem recovery_ignores_failed_attempts_detour :
    (∀ rounds, many (literal "a" : Parser Nat String) rounds =
      many (detour (literal "a") fun n _ => n + 1) rounds) ∧
    ∀ rounds, separatedBy (literal "a" : Parser Nat String) (literal ",") rounds =
      separatedBy (detour (literal "a") fun n _ => n + 1) (detour (literal ",") fun n _ => 2 * n)
        rounds := by
  have hitem : (literal "a" : Parser Nat String).SuccessEquiv
      (detour (literal "a") fun n _ => n + 1) := SuccessEquiv.detour _ _
  have hcomma : (literal "," : Parser Nat String).SuccessEquiv
      (detour (literal ",") fun n _ => 2 * n) := SuccessEquiv.detour _ _
  obtain ⟨-, hmany, hseparated, -⟩ := recovery_ignores_failed_attempts hitem hcomma
  exact ⟨hmany, hseparated⟩

end ContextParser.Parser
