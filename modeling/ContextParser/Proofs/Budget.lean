import ContextParser.Proofs.Simulation.Grammar

/-!
# Budgets

A run that stays within its budget ends in the same way under every larger budget (`run_mono`). So
it makes sense to say how the runs of a grammar end without naming a budget: they reach a state, or
they are rejected, once the budget is large enough. The statements that follow say this of a grammar
when it is known of its parts; where two parts are run, they are given a budget that is enough for
both.
-/

set_option autoImplicit false

namespace ContextParser

/-- A budget is below another when it allows no more rounds and no more depth. -/
instance : LE Budget where
  le b b' := b.rounds ≤ b'.rounds ∧ b.depth ≤ b'.depth

/-- Every budget is enough where it is enough itself. -/
theorem Budget.le_refl (b : Budget) : b ≤ b :=
  ⟨Nat.le_refl _, Nat.le_refl _⟩

/-- A budget that is enough where either of two is. -/
def Budget.max (b b' : Budget) : Budget where
  rounds := Max.max b.rounds b'.rounds
  depth := Max.max b.depth b'.depth

/-- A budget that is above the larger of two is above both. -/
theorem Budget.le_of_max_le {b b' c : Budget} (h : b.max b' ≤ c) : b ≤ c ∧ b' ≤ c := by
  obtain ⟨hrounds, hdepth⟩ := h
  simp only [Budget.max] at hrounds hdepth
  exact ⟨⟨by omega, by omega⟩, by omega, by omega⟩

variable {C : Type} {R : Type → Type} {α β γ : Type}

namespace Simulation

/-- To do the same, unless the first run is out of budget. -/
def budget (C : Type) : Simulation C C where
  states := Eq
  failures := Eq
  excused c := c = .outOfBudget
  index_eq_iff := by
    rintro s _ t _ rfl rfl
    rfl
  slice?_eq := by
    rintro s _ t _ rfl rfl
    rfl
  failures_mismatch := by
    rintro s _ message rfl
    rfl
  failures_exhausted := by
    rintro s _ messages rfl
    rfl
  failures_label := by
    rintro e _ message rfl
    rfl
  message_eq := by
    rintro e _ rfl
    rfl

/-- A run agrees with itself. -/
theorem agree_refl (o : Outcome (Failure C) (Success C α)) : (budget C).Agree o o := by
  cases o with
  | success r => exact .success r.value rfl
  | failure e => exact .failure rfl
  | fault c => exact .fault c

/-- A run that stays within its budget ends just as any run that agrees with it. -/
theorem eq_of_agree {o o' : Outcome (Failure C) (Success C α)} (h : (budget C).Agree o o')
    (ho : o ≠ .fault .outOfBudget) : o' = o := by
  cases h with
  | @success s t value h =>
    obtain rfl : s = t := h
    rfl
  | @failure e e' h =>
    obtain rfl : e = e' := h
    rfl
  | fault c => rfl
  | @excused c h o =>
    obtain rfl : c = .outOfBudget := h
    exact absurd rfl ho

/-- Nothing in a grammar depends on the budget, so no node has to bring anything along. -/
theorem covers_budget (g : Grammar C R α) : (budget C).Covers g := by
  cases g with
  | mapWith grammar f =>
    rintro a s _ rfl
    rfl
  | modifyContext grammar f =>
    rintro a s _ rfl
    rfl
  | succeed | fail | call | delay | bind | map | zipWith | all | any | many | many1 | separatedBy |
    opt | label | withText => exact trivial
  | _ =>
    rintro s _ rfl
    exact agree_refl _

/-- A run under a larger budget does the same, unless the first is out of budget. -/
theorem simulates_run_of_le (rules : Rules C R) {b b' : Budget} (hle : b ≤ b')
    (g : Grammar C R α) : (budget C).Simulates (rules.run b g) (rules.run b' g) :=
  simulates_run (fun rule => Grammar.everywhere_of_forall covers_budget (rules.body rule))
    (.inr ⟨hle.1, rfl⟩) (.inr ⟨hle.2, rfl⟩) (Grammar.everywhere_of_forall covers_budget g)

end Simulation

namespace Rules

variable {rules : Rules C R}

/-- What a run ends in under one budget, it ends in under every larger one. -/
theorem run_mono {b b' : Budget} (hle : b ≤ b') {g : Grammar C R α} {s : State C}
    {o : Outcome (Failure C) (Success C α)} (h : rules.run b g s = o)
    (ho : o ≠ .fault .outOfBudget) : rules.run b' g s = o := by
  have hsim := Simulation.simulates_run_of_le rules hle g s s rfl
  subst h
  exact Simulation.eq_of_agree hsim ho

/-- Runs end in an outcome once the budget is large enough. -/
def EndsIn (rules : Rules C R) (g : Grammar C R α) (s : State C)
    (o : Outcome (Failure C) (Success C α)) : Prop :=
  ∃ least : Budget, ∀ b, least ≤ b → rules.run b g s = o

/-- Runs from the first state succeed in the second. -/
def Reaches (rules : Rules C R) (g : Grammar C R α) (s t : State C) : Prop :=
  ∃ value, rules.EndsIn g s (.success { state := t, value })

/-- Runs from the state fail. -/
def Rejects (rules : Rules C R) (g : Grammar C R α) (s : State C) : Prop :=
  ∃ e, rules.EndsIn g s (.failure e)

end Rules

end ContextParser
