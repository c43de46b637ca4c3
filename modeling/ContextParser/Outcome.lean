import ContextParser.Failure

/-!
# Outcomes

A computation of this library ends in one of three ways: with an answer, with a failure that others
may recover from, or with a fault that nobody recovers from.
-/

set_option autoImplicit false

namespace ContextParser

/-- The end of a computation. -/
inductive Outcome (ε α : Type) where
  | success (answer : α)
  | failure (error : ε)
  | fault (cause : Fault)
deriving DecidableEq, Repr

namespace Outcome

variable {ε ε' α β : Type}

/-- Go on with the answer of a success; anything else stays as it is. -/
def bind : Outcome ε α → (α → Outcome ε β) → Outcome ε β
  | success a, f => f a
  | failure e, _ => failure e
  | fault c, _ => fault c

/-- Apply a function to the answer of a success. -/
def map (f : α → β) : Outcome ε α → Outcome ε β
  | success a => success (f a)
  | failure e => failure e
  | fault c => fault c

/-- Apply a function to the error of a failure. -/
def mapFailure (f : ε → ε') : Outcome ε α → Outcome ε' α
  | success a => success a
  | failure e => failure (f e)
  | fault c => fault c

/-- An answer or a fault. -/
def ofExcept : Except Fault α → Outcome ε α
  | .ok a => success a
  | .error c => fault c

instance : Monad (Outcome ε) where
  pure := success
  bind := bind

/-- A success goes on with its answer. -/
@[simp] theorem bind_success (a : α) (f : α → Outcome ε β) : (success a).bind f = f a := rfl

/-- Nothing follows a failure. -/
@[simp] theorem bind_failure (e : ε) (f : α → Outcome ε β) :
    (failure e : Outcome ε α).bind f = failure e := rfl

/-- Nothing follows a fault. -/
@[simp] theorem bind_fault (c : Fault) (f : α → Outcome ε β) :
    (fault c : Outcome ε α).bind f = fault c := rfl

/-- A function of the answer is applied to the answer of a success. -/
@[simp] theorem map_success (f : α → β) (a : α) :
    (success a : Outcome ε α).map f = success (f a) := rfl

/-- A failure has no answer that a function could be applied to. -/
@[simp] theorem map_failure (f : α → β) (e : ε) :
    (failure e : Outcome ε α).map f = failure e := rfl

/-- A fault has no answer that a function could be applied to. -/
@[simp] theorem map_fault (f : α → β) (c : Fault) :
    (fault c : Outcome ε α).map f = fault c := rfl

/-- A success has no error to change. -/
@[simp] theorem mapFailure_success (f : ε → ε') (a : α) :
    (success a : Outcome ε α).mapFailure f = success a := rfl

/-- The error of a failure is changed as asked. -/
@[simp] theorem mapFailure_failure (f : ε → ε') (e : ε) :
    (failure e : Outcome ε α).mapFailure f = failure (f e) := rfl

/-- A fault is no failure, and its cause stays. -/
@[simp] theorem mapFailure_fault (f : ε → ε') (c : Fault) :
    (fault c : Outcome ε α).mapFailure f = fault c := rfl

/-- To go on with the answer itself is to stop there. -/
theorem bind_pure (o : Outcome ε α) : o.bind success = o := by
  cases o <;> rfl

/-- It does not matter how three computations in a row are grouped. -/
theorem bind_assoc {γ : Type} (o : Outcome ε α) (f : α → Outcome ε β) (g : β → Outcome ε γ) :
    (o.bind f).bind g = o.bind fun a => (f a).bind g := by
  cases o <;> rfl

/-- Applying a function is going on with its result. -/
theorem map_eq_bind (f : α → β) (o : Outcome ε α) : o.map f = o.bind fun a => success (f a) := by
  cases o <;> rfl

/-- Two functions of the answer one after the other are their composition. -/
theorem map_map {γ : Type} (f : α → β) (g : β → γ) (o : Outcome ε α) :
    (o.map f).map g = o.map fun a => g (f a) := by
  cases o <;> rfl

/-- Two changes of the error one after the other are their composition. -/
theorem mapFailure_mapFailure {ε'' : Type} (f : ε → ε') (g : ε' → ε'') (o : Outcome ε α) :
    (o.mapFailure f).mapFailure g = o.mapFailure fun e => g (f e) := by
  cases o <;> rfl

end Outcome

/-- The answer of a parser: its value, and the state to go on from. -/
structure Success (C α : Type) where
  state : State C
  value : α
deriving DecidableEq, Repr

namespace Success

variable {C α β : Type}

/-- Apply a function to the value. -/
def map (f : α → β) (r : Success C α) : Success C β :=
  { state := r.state, value := f r.value }

/-- A function of the value leaves the state of a success alone. -/
@[simp] theorem map_state (f : α → β) (r : Success C α) : (r.map f).state = r.state := rfl

/-- The value of a success is the one that the function makes. -/
@[simp] theorem map_value (f : α → β) (r : Success C α) : (r.map f).value = f r.value := rfl

end Success

end ContextParser
