import Mathlib.Data.List.Forall2
import ContextParser.Parser.Repeat

/-!
# Simulation between parsers

Two parsers are run side by side, on states that are related in a certain way. One simulates the
other if the two runs always end alike: both in success with the same value and related states, both
in related failures, or both in the same fault. Some faults of the first run may be excused, and
then the second run may do as it likes.

The laws of a simulation are those by which it passes from the parts of a parser to the whole:
related states have to agree on whether a step has moved the cursor, and on the part of the text
that it has consumed. The two loops of a pair may also have different budgets if running out of the
smaller one is excused.
-/

set_option autoImplicit false

namespace ContextParser

/-- Families that are related member by member make related lists. -/
theorem forall₂_ofFn {γ δ : Type} {P : γ → δ → Prop} {n : Nat} {f : Fin n → γ} {g : Fin n → δ}
    (h : ∀ i, P (f i) (g i)) : List.Forall₂ P (List.ofFn f) (List.ofFn g) := by
  induction n with
  | zero => simp
  | succ n ih =>
    rw [List.ofFn_succ, List.ofFn_succ]
    exact .cons (h 0) (ih fun i => h i.succ)

/-- A way to compare runs over two types of contexts. -/
structure Simulation (C D : Type) where
  /-- The states from which, and in which, the two runs go side by side. -/
  states : State C → State D → Prop
  /-- The failures in which they may end. -/
  failures : Failure C → Failure D → Prop
  /-- The faults of the first run after which nothing is said about the second. -/
  excused : Fault → Prop
  index_eq_iff : ∀ {s t s' t'}, states s t → states s' t' →
    (s'.index = s.index ↔ t'.index = t.index)
  slice?_eq : ∀ {s t s' t'}, states s t → states s' t' →
    Text.slice? s.index s'.index s.text.toList = Text.slice? t.index t'.index t.text.toList
  failures_mismatch : ∀ {s t} message, states s t →
    failures (.mismatch message s) (.mismatch message t)
  failures_exhausted : ∀ {s t} messages, states s t →
    failures (.exhausted messages s) (.exhausted messages t)
  failures_label : ∀ {e e'} message, failures e e' →
    failures { e with message } { e' with message }
  message_eq : ∀ {e e'}, failures e e' → e.message = e'.message

namespace Simulation

variable {C D α β γ : Type} (S : Simulation C D)

/-- Two runs end alike. -/
inductive Agree {α : Type} :
    Outcome (Failure C) (Success C α) → Outcome (Failure D) (Success D α) → Prop where
  | success {s : State C} {t : State D} (value : α) (h : S.states s t) :
      Agree (.success { state := s, value }) (.success { state := t, value })
  | failure {e : Failure C} {e' : Failure D} (h : S.failures e e') :
      Agree (.failure e) (.failure e')
  | fault (c : Fault) : Agree (.fault c) (.fault c)
  | excused {c : Fault} (h : S.excused c) (o : Outcome (Failure D) (Success D α)) :
      Agree (.fault c) o

/-- The rounds that a pair of loops may have: the same number, or fewer for the first one if it is
excused when it runs out of them. -/
def Paced (m n : Nat) : Prop :=
  m = n ∨ m ≤ n ∧ S.excused .outOfBudget

/-- Runs from related states end alike. -/
def Simulates (p : Parser C α) (q : Parser D α) : Prop :=
  ∀ s t, S.states s t → S.Agree (p s) (q t)

variable {S}

/-- A loop with a round to go is paired with one that has a round to go as well. -/
theorem Paced.exists_succ {m n : Nat} (h : S.Paced (m + 1) n) : ∃ k, n = k + 1 ∧ S.Paced m k := by
  rcases h with rfl | ⟨hle, hbudget⟩
  · exact ⟨m, rfl, .inl rfl⟩
  · exact ⟨n - 1, by omega, .inr ⟨by omega, hbudget⟩⟩

/-- A loop without any rounds left agrees with every loop that it may be paired with. -/
theorem agree_of_paced_zero {n : Nat} (loop : Nat → Outcome (Failure D) (Success D α))
    (h : S.Paced 0 n) (hloop : loop 0 = .fault .outOfBudget) :
    S.Agree (.fault .outOfBudget) (loop n) := by
  rcases h with rfl | ⟨-, hbudget⟩
  · rw [hloop]
    exact .fault .outOfBudget
  · exact .excused hbudget _

/-- Runs that end alike may be followed by computations that agree on related states. -/
theorem agree_bind {o : Outcome (Failure C) (Success C α)} {o' : Outcome (Failure D) (Success D α)}
    {f : Success C α → Outcome (Failure C) (Success C β)}
    {g : Success D α → Outcome (Failure D) (Success D β)} (h : S.Agree o o')
    (hfg : ∀ s t value, S.states s t →
      S.Agree (f { state := s, value }) (g { state := t, value })) :
    S.Agree (o.bind f) (o'.bind g) := by
  cases h with
  | success value hst => exact hfg _ _ value hst
  | failure h => exact .failure h
  | fault c => exact .fault c
  | excused h => exact .excused h _

/-- Runs that end alike may be changed alike. -/
theorem agree_map {o : Outcome (Failure C) (Success C α)} {o' : Outcome (Failure D) (Success D α)}
    {f : Success C α → Success C β} {g : Success D α → Success D β} (h : S.Agree o o')
    (hfg : ∀ s t value, S.states s t →
      S.Agree (.success (f { state := s, value })) (.success (g { state := t, value }))) :
    S.Agree (o.map f) (o'.map g) := by
  cases h with
  | success value hst => exact hfg _ _ value hst
  | failure h => exact .failure h
  | fault c => exact .fault c
  | excused h => exact .excused h _

/-- Putting the same value in front of what two loops have collected. -/
theorem agree_cons {o : Outcome (Failure C) (Success C (List α))}
    {o' : Outcome (Failure D) (Success D (List α))} (value : α) (h : S.Agree o o') :
    S.Agree (o.map (·.map (value :: ·))) (o'.map (·.map (value :: ·))) :=
  agree_map h fun _ _ values hst => .success (value :: values) hst

/-- To yield a value on the spot is the same from related states. -/
theorem simulates_succeed (value : α) :
    S.Simulates (Parser.succeed value) (Parser.succeed value) := fun _ _ hst =>
  .success value hst

/-- To fail on the spot is to report related failures. -/
theorem simulates_fail (message : String) :
    S.Simulates (Parser.fail message : Parser C α) (Parser.fail message) := fun _ _ hst =>
  .failure (S.failures_mismatch message hst)

variable {p : Parser C α} {q : Parser D α}

/-- Parsers may be followed by parsers made from the value, if these do alike for every value. -/
theorem simulates_bind {f : α → Parser C β} {g : α → Parser D β} (hp : S.Simulates p q)
    (hf : ∀ a, S.Simulates (f a) (g a)) : S.Simulates (Parser.bind p f) (Parser.bind q g) := by
  intro s t hst
  unfold Parser.bind
  exact agree_bind (hp s t hst) fun s' t' value h => hf value s' t' h

/-- A function of the value is applied to equal values. -/
theorem simulates_map (hp : S.Simulates p q) (f : α → β) :
    S.Simulates (Parser.map p f) (Parser.map q f) := by
  intro s t hst
  unfold Parser.map
  exact agree_map (hp s t hst) fun _ _ value h => .success (f value) h

/-- Functions of the value and the context may differ where contexts do, as long as they make the
same of related states. -/
theorem simulates_mapWith {f : α → C → β} {g : α → D → β} (hp : S.Simulates p q)
    (hfg : ∀ a s t, S.states s t → f a s.context = g a t.context) :
    S.Simulates (Parser.mapWith p f) (Parser.mapWith q g) := by
  intro s t hst
  unfold Parser.mapWith
  apply agree_map (hp s t hst)
  intro s' t' value h
  simp only [Success.map, hfg value s' t' h]
  exact .success _ h

/-- Contexts may be changed in different ways as long as related states stay related. -/
theorem simulates_modifyContext {f : C → α → C} {g : D → α → D} (hp : S.Simulates p q)
    (hfg : ∀ a s t, S.states s t → S.states (s.mapContext (f · a)) (t.mapContext (g · a))) :
    S.Simulates (Parser.modifyContext p f) (Parser.modifyContext q g) := by
  intro s t hst
  unfold Parser.modifyContext
  exact agree_map (hp s t hst) fun s' t' value h => .success value (hfg value s' t' h)

/-- The other parser may leave the context alone, if that makes no difference. -/
theorem simulates_of_modifyContext {f : C → α → C} (hp : S.Simulates p q)
    (hf : ∀ a s t, S.states s t → S.states (s.mapContext (f · a)) t) :
    S.Simulates (Parser.modifyContext p f) q := by
  intro s t hst
  have h := hp s t hst
  unfold Parser.modifyContext
  generalize p s = o at h ⊢
  generalize q t = o' at h ⊢
  cases h with
  | success value h => exact .success value (hf value _ _ h)
  | failure h => exact .failure h
  | fault c => exact .fault c
  | excused h => exact .excused h _

/-- Two parsers in a row do alike if each of them does. -/
theorem simulates_zipWith {p' : Parser C β} {q' : Parser D β} (hp : S.Simulates p q)
    (hp' : S.Simulates p' q') (f : α → β → γ) :
    S.Simulates (Parser.zipWith p p' f) (Parser.zipWith q q' f) := by
  rw [Parser.zipWith_eq_bind, Parser.zipWith_eq_bind]
  exact simulates_bind hp fun _ => simulates_bind hp' fun _ => simulates_succeed _

/-- Two parsers in a row do alike if each of them does, also where the second value is dropped. -/
theorem simulates_seqLeft {p' : Parser C β} {q' : Parser D β} (hp : S.Simulates p q)
    (hp' : S.Simulates p' q') : S.Simulates (Parser.seqLeft p p') (Parser.seqLeft q q') :=
  simulates_map (simulates_zipWith hp hp' Prod.mk) Prod.fst

/-- Two parsers in a row do alike if each of them does, also where the first value is dropped. -/
theorem simulates_seqRight {p' : Parser C β} {q' : Parser D β} (hp : S.Simulates p q)
    (hp' : S.Simulates p' q') : S.Simulates (Parser.seqRight p p') (Parser.seqRight q q') :=
  simulates_map (simulates_zipWith hp hp' Prod.mk) Prod.snd

/-- Families of parsers in a row do alike if their members do. -/
theorem simulates_all {n : Nat} {τ : Fin n → Type} {ps : (i : Fin n) → Parser C (τ i)}
    {qs : (i : Fin n) → Parser D (τ i)} (h : ∀ i, S.Simulates (ps i) (qs i)) :
    S.Simulates (Parser.all ps) (Parser.all qs) := by
  induction n with
  | zero => exact simulates_succeed _
  | succ n ih =>
    have htail := ih fun i => h i.succ
    rw [Parser.all_succ, Parser.all_succ]
    exact simulates_zipWith (h 0) htail _

/-- Choices do alike if their alternatives do, one by one. -/
theorem simulates_any {ps : List (Parser C α)} {qs : List (Parser D α)}
    (h : List.Forall₂ S.Simulates ps qs) : S.Simulates (Parser.any ps) (Parser.any qs) := by
  intro s t hst
  unfold Parser.any
  -- the messages of earlier alternatives stand before those of the rest
  suffices hfirst : ∀ earlier : List String,
      S.Agree ((Parser.firstSuccess s ps).mapFailure fun later => .exhausted (earlier ++ later) s)
        ((Parser.firstSuccess t qs).mapFailure fun later => .exhausted (earlier ++ later) t) from
    hfirst []
  induction h with
  | nil => exact fun earlier => .failure (S.failures_exhausted (earlier ++ []) hst)
  | @cons p q ps qs hp _ ih =>
    intro earlier
    have h := hp s t hst
    rw [Parser.firstSuccess, Parser.firstSuccess]
    generalize p s = o at h ⊢
    generalize q t = o' at h ⊢
    cases h with
    | success value h => exact .success value h
    | @failure e e' h =>
      have htail := ih (earlier ++ [e.message])
      simp only [List.append_assoc, List.singleton_append] at htail
      simp only [Outcome.mapFailure_mapFailure, ← S.message_eq h]
      exact htail
    | fault c => exact .fault c
    | excused h => exact .excused h _

/-- An optional parser that fails is back at the related states from which it started. -/
theorem simulates_opt (hp : S.Simulates p q) : S.Simulates (Parser.opt p) (Parser.opt q) := by
  intro s t hst
  have h := hp s t hst
  unfold Parser.opt
  generalize p s = o at h ⊢
  generalize q t = o' at h ⊢
  cases h with
  | success value h => exact .success (some value) h
  | failure _ => exact .success none hst
  | fault c => exact .fault c
  | excused h => exact .excused h _

/-- A failure is given the same message in both runs. -/
theorem simulates_label (hp : S.Simulates p q) (message : String) :
    S.Simulates (Parser.label p message) (Parser.label q message) := by
  intro s t hst
  have h := hp s t hst
  unfold Parser.label
  generalize p s = o at h ⊢
  generalize q t = o' at h ⊢
  cases h with
  | success value h => exact .success value h
  | failure h => exact .failure (S.failures_label message h)
  | fault c => exact .fault c
  | excused h => exact .excused h _

/-- Both runs yield the same text, since related states delimit the same part of their texts. -/
theorem simulates_withText (hp : S.Simulates p q) :
    S.Simulates (Parser.withText p) (Parser.withText q) := by
  intro s t hst
  unfold Parser.withText
  apply agree_map (hp s t hst)
  intro s' t' value h
  simp only [Success.map, S.slice?_eq hst h]
  exact .success _ h

/-- The loops go round by round as long as both have rounds left. -/
theorem simulates_many (hp : S.Simulates p q) {m n : Nat}
    (hmn : S.Paced m n) :
    S.Simulates (Parser.many p m) (Parser.many q n) := by
  induction m generalizing n with
  | zero =>
    exact fun s t _ => agree_of_paced_zero (Parser.many q · t) hmn rfl
  | succ m ih =>
    obtain ⟨n, rfl, hrest⟩ := hmn.exists_succ
    intro s t hst
    have h := hp s t hst
    rw [Parser.many, Parser.many]
    generalize p s = o at h ⊢
    generalize q t = o' at h ⊢
    cases h with
    | @success s' t' value h =>
      -- both rounds stand still or neither does, so the loops stop at the same time
      have hmoved := S.index_eq_iff hst h
      by_cases hstill : s'.index = s.index
      · simp only [if_pos hstill, if_pos (hmoved.1 hstill)]
        exact .success [value] h
      · simp only [if_neg hstill, if_neg (mt hmoved.2 hstill)]
        exact agree_cons value (ih hrest s' t' h)
    | failure _ => exact .success [] hst
    | fault c => exact .fault c
    | excused h => exact .excused h _

/-- Repetitions do alike if the first rounds and the repetitions behind them do. -/
theorem simulates_many1 (hp : S.Simulates p q) {m n : Nat}
    (hmn : S.Paced m n) :
    S.Simulates (Parser.many1 p m) (Parser.many1 q n) := by
  intro s t hst
  cases m with
  | zero =>
    exact agree_of_paced_zero (Parser.many1 q · t) hmn rfl
  | succ m =>
    obtain ⟨n, rfl, hrest⟩ := hmn.exists_succ
    rw [Parser.many1, Parser.many1]
    apply agree_bind (hp s t hst)
    intro s' t' value h
    have hmoved := S.index_eq_iff hst h
    by_cases hstill : s'.index = s.index
    · simp only [if_pos hstill, if_pos (hmoved.1 hstill)]
      exact .success [value] h
    · simp only [if_neg hstill, if_neg (mt hmoved.2 hstill)]
      exact agree_cons value (simulates_many hp hrest s' t' h)

/-- Further separated items do alike round by round. -/
theorem simulates_separatedTail {sep : Parser C β} {sep' : Parser D β} (hp : S.Simulates p q)
    (hsep : S.Simulates sep sep') {m n : Nat} (hmn : S.Paced m n) :
    S.Simulates (Parser.separatedTail p sep m) (Parser.separatedTail q sep' n) := by
  induction m generalizing n with
  | zero =>
    exact fun s t _ => agree_of_paced_zero (Parser.separatedTail q sep' · t) hmn rfl
  | succ m ih =>
    obtain ⟨n, rfl, hrest⟩ := hmn.exists_succ
    intro s t hst
    have h := simulates_seqRight hsep hp s t hst
    rw [Parser.separatedTail, Parser.separatedTail]
    generalize Parser.seqRight sep p s = o at h ⊢
    generalize Parser.seqRight sep' q t = o' at h ⊢
    cases h with
    | @success s' t' value h => exact agree_cons value (ih hrest s' t' h)
    | failure _ => exact .success [] hst
    | fault c => exact .fault c
    | excused h => exact .excused h _

/-- Separated items do alike if the first items and the rounds behind them do. -/
theorem simulates_separatedBy {sep : Parser C β} {sep' : Parser D β} (hp : S.Simulates p q)
    (hsep : S.Simulates sep sep') {m n : Nat} (hmn : S.Paced m n) :
    S.Simulates (Parser.separatedBy p sep m) (Parser.separatedBy q sep' n) := by
  intro s t hst
  have h := hp s t hst
  unfold Parser.separatedBy
  generalize p s = o at h ⊢
  generalize q t = o' at h ⊢
  cases h with
  | @success s' t' value h =>
    exact agree_cons value (simulates_separatedTail hp hsep hmn s' t' h)
  | failure _ => exact .success [] hst
  | fault c => exact .fault c
  | excused h => exact .excused h _

end Simulation

end ContextParser
