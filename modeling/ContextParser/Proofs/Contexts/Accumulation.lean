import ContextParser.Proofs.Contexts.Frame
import ContextParser.Proofs.Contexts.Irrelevance
import ContextParser.Proofs.Repetition.Rounds

/-!
# Contexts as folds

A repetition whose rounds each change the context ends with the changes of all its rounds, made in
order: the final context is the fold of the change over the values that the repetition yields
(`accumulated_contexts`). There is one change for each value and no other. An attempt that has
failed and a separator without an item behind it have changed nothing, whatever has been done on the
way.

What has to be known of the parser and of the separator is that they leave the context alone. Then a
run with the changes and a run without them go side by side, and only the context tells them apart.
To say how, a parser is paired with one that accumulates (`Parser.Accumulates`): started with any
context in place of the one of the first, the second does the same as the first and makes of that
context what a function of it and of the value says. For a loop this function is the fold of the one
for a single round.
-/

set_option autoImplicit false

namespace ContextParser

variable {C α β : Type}

/-- Two states that differ in nothing but the context, and the context of one of them. -/
theorem State.eq_withContext {t u : State C} {c : C} (hsame : t.withContext () = u.withContext ())
    (hcontext : t.context = c) : t = u.withContext c := by
  have htext : t.text = u.text := congrArg (fun v : State Unit => v.text) hsame
  have hindex : t.index = u.index := congrArg (fun v : State Unit => v.index) hsame
  rw [withContext, ← htext, ← hindex, ← hcontext]

namespace Outcome

/-- The second outcome is the first with another context, which in a success belongs to the value.
Of failures and faults nothing is said but that they are there. -/
inductive AlikeWith (contextOf : α → C) :
    Outcome (Failure C) (Success C α) → Outcome (Failure C) (Success C α) → Prop where
  | success (t : State C) (value : α) :
      AlikeWith contextOf (.success { state := t, value })
        (.success { state := t.withContext (contextOf value), value })
  | failure (e e' : Failure C) : AlikeWith contextOf (.failure e) (.failure e')
  | fault (c c' : Fault) : AlikeWith contextOf (.fault c) (.fault c')

namespace AlikeWith

variable {o o' : Outcome (Failure C) (Success C α)} {contextOf : α → C}

/-- The second of two outcomes is a success where the first is one, with the context that belongs to
the value. -/
theorem success_iff (h : AlikeWith contextOf o o') {t : State C} {value : α} :
    o' = .success { state := t, value } ↔
      ∃ u, o = .success { state := u, value } ∧ t = u.withContext (contextOf value) := by
  cases h with
  | success u v =>
    constructor
    · intro hsame
      cases hsame
      exact ⟨u, rfl, rfl⟩
    · rintro ⟨u', hsame, ht⟩
      cases hsame
      rw [ht]
  | failure e e' => simp
  | fault c c' => simp

/-- A value in front of what two loops have collected is accumulated before it. -/
theorem cons {f : C → α → C} {c : C} {value : α} {o o' : Outcome (Failure C) (Success C (List α))}
    (h : AlikeWith (fun values => values.foldl f (f c value)) o o') :
    AlikeWith (fun values => values.foldl f c) (o.map (·.map (value :: ·)))
      (o'.map (·.map (value :: ·))) := by
  cases h with
  | success t values => exact .success t (value :: values)
  | failure e e' => exact .failure e e'
  | fault c c' => exact .fault c c'

end AlikeWith

end Outcome

namespace Parser

/-- A parser to which the context makes no difference, be it to whether it succeeds or fails or to
what a success is, and whose successes leave the context as it is. -/
structure LeavesContextAlone (p : Parser C α) : Prop where
  success : ∀ {s r}, p s = .success r → r.state.context = s.context ∧
    ∀ c : C, p (s.withContext c) = .success { state := r.state.withContext c, value := r.value }
  failure : ∀ {s e}, p s = .failure e → ∀ c : C, ∃ e', p (s.withContext c) = .failure e'

/-- Started with any context in place of the one that the first parser is started with, the second
does what the first does, and leaves what `f` makes of that context and of the value. -/
def Accumulates (f : C → α → C) (p q : Parser C α) : Prop :=
  ∀ (s : State C) (c : C), (p s).AlikeWith (f c) (q (s.withContext c))

variable {p q : Parser C α} {sep sep' : Parser C β} {f : C → α → C}

namespace LeavesContextAlone

/-- Such a parser accumulates nothing. What it does from the one context follows from what it does
from the other, and the other way round. -/
theorem accumulates (hp : p.LeavesContextAlone) : Accumulates (fun c _ => c) p p := by
  intro s c
  cases hrun : p s with
  | success r =>
    obtain ⟨-, hother⟩ := hp.success hrun
    rw [hother c]
    exact .success r.state r.value
  | failure e =>
    obtain ⟨e', hother⟩ := hp.failure hrun c
    rw [hother]
    exact .failure e e'
  | fault cause =>
    cases hother : p (s.withContext c) with
    | success r =>
      have hback : p s = _ := (hp.success hother).2 s.context
      simp [hrun] at hback
    | failure e =>
      obtain ⟨e', hback⟩ := hp.failure hother s.context
      have hfails : p s = .failure e' := hback
      simp [hrun] at hfails
    | fault cause' => exact .fault cause cause'

/-- A change of the context behind such a parser is all that is accumulated. -/
theorem accumulates_modifyContext (hp : p.LeavesContextAlone) (f : C → α → C) :
    Accumulates f p (modifyContext p f) := by
  intro s c
  have h := hp.accumulates s c
  unfold modifyContext
  generalize p s = o at h ⊢
  generalize p (s.withContext c) = o' at h ⊢
  cases h with
  | success t value => exact .success t value
  | failure e e' => exact .failure e e'
  | fault cause cause' => exact .fault cause cause'

end LeavesContextAlone

/-! ## Loops -/

namespace Accumulates

/-- A separator that leaves the context alone hands it on to the item behind it. -/
theorem seqRight (hsep : Accumulates (fun c _ => c) sep sep') (hp : Accumulates f p q) :
    Accumulates f (Parser.seqRight sep p) (Parser.seqRight sep' q) := by
  intro s c
  have h := hsep s c
  rw [seqRight_apply, seqRight_apply]
  generalize sep s = o at h ⊢
  generalize sep' (s.withContext c) = o' at h ⊢
  cases h with
  | success t value => exact hp t c
  | failure e e' => exact .failure e e'
  | fault cause cause' => exact .fault cause cause'

/-- The attempt that fails leaves both loops with the contexts that they have had before it. -/
theorem turn {next next' : Parser C (List α)} (hp : Accumulates f p q)
    (hnext : Accumulates (fun c values => values.foldl f c) next next') :
    Accumulates (fun c values => values.foldl f c) (Parser.turn p next) (Parser.turn q next') := by
  intro s c
  have h := hp s c
  unfold Parser.turn
  generalize p s = o at h ⊢
  generalize q (s.withContext c) = o' at h ⊢
  cases h with
  | success t value => exact (hnext t (f c value)).cons
  | failure e e' => exact .success s []
  | fault cause cause' => exact .fault cause cause'

/-- The rounds behind a first item accumulate what the items do, if the separator leaves the context
alone. -/
theorem separatedTail (hp : Accumulates f p q) (hsep : Accumulates (fun c _ => c) sep sep')
    (rounds : Nat) :
    Accumulates (fun c values => values.foldl f c) (Parser.separatedTail p sep rounds)
      (Parser.separatedTail q sep' rounds) := by
  induction rounds with
  | zero => exact fun _ _ => .fault .outOfBudget .outOfBudget
  | succ rounds ih =>
    rw [separatedTail_succ, separatedTail_succ]
    exact (hsep.seqRight hp).turn ih

/-- Separated items accumulate what the items do, if the separator leaves the context alone. -/
theorem separatedBy (hp : Accumulates f p q) (hsep : Accumulates (fun c _ => c) sep sep')
    (rounds : Nat) :
    Accumulates (fun c values => values.foldl f c) (Parser.separatedBy p sep rounds)
      (Parser.separatedBy q sep' rounds) := by
  rw [separatedBy_eq_turn, separatedBy_eq_turn]
  exact hp.turn (hp.separatedTail hsep rounds)

/-- Behind a round that has succeeded, both loops see the same movement of the cursor. So both stop,
and the value of this round is the last one to be accumulated, or both go on. -/
theorem goOn {next next' : Parser C (List α)}
    (hnext : Accumulates (fun c values => values.foldl f c) next next') (s t : State C) (c : C)
    (value : α) :
    Outcome.AlikeWith (fun values => values.foldl f c)
      (if t.index = s.index then
        .success { state := t, value := [value] }
      else
        (next t).map (·.map (value :: ·)))
      (if (t.withContext (f c value)).index = (s.withContext c).index then
        .success { state := t.withContext (f c value), value := [value] }
      else
        (next' (t.withContext (f c value))).map (·.map (value :: ·))) := by
  by_cases hstill : t.index = s.index
  · have hstill' : (t.withContext (f c value)).index = (s.withContext c).index := hstill
    rw [if_pos hstill, if_pos hstill']
    exact .success t [value]
  · have hmoved : (t.withContext (f c value)).index ≠ (s.withContext c).index := hstill
    rw [if_neg hstill, if_neg hmoved]
    exact (hnext t (f c value)).cons

/-- The induction is on the budget. Both loops stop in the same round and for the same reason. -/
theorem many (hp : Accumulates f p q) (rounds : Nat) :
    Accumulates (fun c values => values.foldl f c) (Parser.many p rounds)
      (Parser.many q rounds) := by
  induction rounds with
  | zero => exact fun _ _ => .fault .outOfBudget .outOfBudget
  | succ rounds ih =>
    intro s c
    have h := hp s c
    rw [Parser.many, Parser.many]
    generalize p s = o at h ⊢
    generalize q (s.withContext c) = o' at h ⊢
    cases h with
    | success t value => exact ih.goOn s t c value
    | failure e e' => exact .success s []
    | fault cause cause' => exact .fault cause cause'

/-- The first attempt is the only one whose failure ends the loop with a failure, and otherwise the
loop is that of `many`. -/
theorem many1 (hp : Accumulates f p q) (rounds : Nat) :
    Accumulates (fun c values => values.foldl f c) (Parser.many1 p rounds)
      (Parser.many1 q rounds) := by
  cases rounds with
  | zero => exact fun _ _ => .fault .outOfBudget .outOfBudget
  | succ rounds =>
    intro s c
    have h := hp s c
    rw [Parser.many1, Parser.many1]
    generalize p s = o at h ⊢
    generalize q (s.withContext c) = o' at h ⊢
    cases h with
    | success t value => exact (hp.many rounds).goOn s t c value
    | failure e e' => exact .failure e e'
    | fault cause cause' => exact .fault cause cause'

end Accumulates

/-- A change of the context behind a success leaves the failures as they are. -/
theorem modifyContext_eq_failure_iff {s : State C} {e : Failure C} :
    modifyContext p f s = .failure e ↔ p s = .failure e := by
  unfold modifyContext
  exact Outcome.map_eq_failure_iff

/-- From the same state, `many1` fails for the first attempt, which no change of the context has
come before. -/
theorem many1_modifyContext_eq_failure_iff {rounds : Nat} {s : State C} {e : Failure C} :
    many1 (modifyContext p f) rounds s = .failure e ↔ many1 p rounds s = .failure e := by
  cases rounds with
  | zero => simp [many1]
  | succ rounds =>
    constructor
    · intro h
      exact many1_of_failure (modifyContext_eq_failure_iff.1 (many1_eq_failure h)) rounds
    · intro h
      exact many1_of_failure (modifyContext_eq_failure_iff.2 (many1_eq_failure h)) rounds

/-! ## Grammars that leave the context alone -/

/-- It is enough that the outcomes from two contexts differ in nothing but the context, and that no
run changes it. -/
theorem leavesContextAlone_of_withoutContext
    (hsame : ∀ s (c : C), (p (s.withContext c)).withoutContext = (p s).withoutContext)
    (hkeeps : ∀ s t, (p s).endState? = some t → t.context = s.context) :
    p.LeavesContextAlone := by
  constructor
  · intro s r hrun
    refine ⟨hkeeps s r.state (by rw [hrun]; rfl), fun c => ?_⟩
    have hother := hsame s c
    rw [hrun] at hother
    cases hrun' : p (s.withContext c) with
    | success r' =>
      have hcontext : r'.state.context = c := hkeeps (s.withContext c) r'.state (by rw [hrun']; rfl)
      rw [hrun'] at hother
      obtain ⟨t', v'⟩ := r'
      have hstates : t'.withContext () = r.state.withContext () :=
        congrArg Success.state (Outcome.success.inj hother)
      have hvalues : v' = r.value := congrArg Success.value (Outcome.success.inj hother)
      rw [hvalues, State.eq_withContext hstates hcontext]
    | failure e => simp [hrun', Outcome.withoutContext] at hother
    | fault cause => simp [hrun', Outcome.withoutContext] at hother
  · intro s e hrun c
    have hother := hsame s c
    rw [hrun] at hother
    cases hrun' : p (s.withContext c) with
    | success r' => simp [hrun', Outcome.withoutContext] at hother
    | failure e' => exact ⟨e', rfl⟩
    | fault cause => simp [hrun', Outcome.withoutContext] at hother

/-- Every run of a grammar that neither looks at the context nor changes it leaves it alone. -/
theorem leavesContextAlone_run {R : Type → Type} {rules : Rules C R}
    (hrules : rules.Everywhere fun g => g.IgnoresContext ∧ g.LeavesContext) {g : Grammar C R α}
    (hg : g.Everywhere fun g => g.IgnoresContext ∧ g.LeavesContext) (budget : Budget) :
    (rules.run budget g).LeavesContextAlone := by
  apply leavesContextAlone_of_withoutContext
  · intro s c
    have hignores := fun {β : Type} (rule : R β) => (hrules rule).mono fun _ h => h.1
    have hsame := run_withoutContext hignores hignores (fun _ => rfl) (hg.mono fun _ h => h.1)
      (hg.mono fun _ h => h.1) rfl budget (s := s.withContext c) (t := s) rfl rfl ()
    exact hsame.1
  · intro s t ht
    exact context_endState (fun rule => (hrules rule).mono fun _ h => h.2) (hg.mono fun _ h => h.2)
      budget ht

/-! ## Changes in every round -/

/-- Let a parser and a separator leave the context alone. Then a repetition of the parser with a
change of the context behind it does the same as the repetition without the changes, but for the
context: from every state and under every budget it succeeds exactly where that one does, with the
same values and at the same place, and fails exactly where that one does, with the same failure. The
context with which it ends is the one at the start with the change made to it for each of the
values, in order. -/
theorem accumulated_contexts {p : Parser C α} {sep : Parser C β} (hp : p.LeavesContextAlone)
    (hsep : sep.LeavesContextAlone) (f : C → α → C) (s : State C) (rounds : Nat) :
    (∀ t values, many (modifyContext p f) rounds s = .success { state := t, value := values } ↔
      ∃ u, many p rounds s = .success { state := u, value := values } ∧
        t = u.withContext (values.foldl f s.context)) ∧
    (∀ t values, many1 (modifyContext p f) rounds s = .success { state := t, value := values } ↔
      ∃ u, many1 p rounds s = .success { state := u, value := values } ∧
        t = u.withContext (values.foldl f s.context)) ∧
    (∀ t values,
      separatedBy (modifyContext p f) sep rounds s = .success { state := t, value := values } ↔
        ∃ u, separatedBy p sep rounds s = .success { state := u, value := values } ∧
          t = u.withContext (values.foldl f s.context)) ∧
    (∀ e, many (modifyContext p f) rounds s = .failure e ↔ many p rounds s = .failure e) ∧
    (∀ e, many1 (modifyContext p f) rounds s = .failure e ↔ many1 p rounds s = .failure e) ∧
    ∀ e, separatedBy (modifyContext p f) sep rounds s = .failure e ↔
      separatedBy p sep rounds s = .failure e := by
  have hround := hp.accumulates_modifyContext f
  refine ⟨?_, ?_, ?_, ?_, ?_, ?_⟩
  · intro t values
    exact (hround.many rounds s s.context).success_iff
  · intro t values
    exact (hround.many1 rounds s s.context).success_iff
  · intro t values
    exact (hround.separatedBy hsep.accumulates rounds s s.context).success_iff
  · intro e
    simp [many_ne_failure]
  · intro e
    exact many1_modifyContext_eq_failure_iff
  · intro e
    simp [separatedBy_ne_failure]

/-- The names of two rules. -/
inductive ListRule : Type → Type where
  | word : ListRule String
  | comma : ListRule String

/-- Rules for the words of a list and for what is between them. -/
def listRules : Rules C ListRule where
  body
    | .word => .chars Text.isAlphabetic
    | .comma => .spaces (.literal ",")

/-- Neither of the rules changes the context. -/
theorem leavesContextAlone_listRules (rule : ListRule α) (budget : Budget) :
    ((listRules : Rules C ListRule).run budget (.call rule)).LeavesContextAlone := by
  apply leavesContextAlone_run
  · intro β rule
    cases rule with
    | word => exact ⟨trivial, trivial⟩
    | comma =>
      exact ⟨⟨trivial, trivial⟩, ⟨trivial, trivial⟩, ⟨trivial, trivial⟩, trivial, trivial⟩
  · exact ⟨trivial, trivial⟩

/-- Behind the second word there is a comma, but no third word. So two words are added to the
context, and the comma is not consumed. -/
theorem accumulated_contexts_trailing :
    separatedBy
        (modifyContext (listRules.run { rounds := 0, depth := 1 } (.call .word))
          fun seen word => seen ++ [word])
        (listRules.run { rounds := 0, depth := 1 } (.call .comma)) 3 (.start "né, b, ;" ["a"]) =
      .success { state := { text := "né, b, ;", index := 6, context := ["a", "né", "b"] },
                 value := ["né", "b"] } := by
  obtain ⟨-, -, hsuccess, -⟩ := accumulated_contexts
    (leavesContextAlone_listRules .word { rounds := 0, depth := 1 })
    (leavesContextAlone_listRules .comma { rounds := 0, depth := 1 })
    (fun (seen : List String) word => seen ++ [word]) (.start "né, b, ;" ["a"]) 3
  refine (hsuccess _ _).2 ⟨{ text := "né, b, ;", index := 6, context := ["a"] }, ?_, rfl⟩
  decide +kernel

end Parser

end ContextParser
