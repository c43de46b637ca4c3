import ContextParser.Parser.Basic

/-!
# Parsers in sequence

A sequence runs each parser from the state that the one before has left, and fails as soon as one of
them does, with that very failure.
-/

set_option autoImplicit false

namespace ContextParser.Parser

variable {C α β γ : Type}

/-- Run a parser, make another from its value, and run that. -/
def bind (p : Parser C α) (f : α → Parser C β) : Parser C β := fun s =>
  (p s).bind fun r => f r.value r.state

/-- Apply a function to the value. -/
def map (p : Parser C α) (f : α → β) : Parser C β := fun s =>
  (p s).map (·.map f)

/-- Apply a function to the value and to the context that the parser has left. -/
def mapWith (p : Parser C α) (f : α → C → β) : Parser C β := fun s =>
  (p s).map fun r => r.map (f · r.state.context)

/-- Replace the context that the parser has left by a function of it and of the value. -/
def modifyContext (p : Parser C α) (f : C → α → C) : Parser C α := fun s =>
  (p s).map fun r => { r with state := r.state.mapContext (f · r.value) }

/-- Run two parsers and merge their values. -/
def zipWith (p : Parser C α) (q : Parser C β) (f : α → β → γ) : Parser C γ := fun s =>
  (p s).bind fun r => (q r.state).map fun t => { state := t.state, value := f r.value t.value }

/-- Run two parsers and pair their values. -/
def both (p : Parser C α) (q : Parser C β) : Parser C (α × β) :=
  zipWith p q Prod.mk

/-- Run two parsers and keep the value of the first. -/
def seqLeft (p : Parser C α) (q : Parser C β) : Parser C α :=
  map (both p q) Prod.fst

/-- Run two parsers and keep the value of the second. -/
def seqRight (p : Parser C α) (q : Parser C β) : Parser C β :=
  map (both p q) Prod.snd

/-- Run three parsers and keep the value of the middle one, which is named first. -/
def between (p : Parser C α) (left : Parser C β) (right : Parser C γ) : Parser C α :=
  seqRight left (seqLeft p right)

/-- Run a family of parsers in order, and yield the family of their values. -/
def all : {n : Nat} → {τ : Fin n → Type} → ((i : Fin n) → Parser C (τ i)) →
    Parser C ((i : Fin n) → τ i)
  | 0, _, _ => fun s => .success { state := s, value := fun i => i.elim0 }
  | _ + 1, _, ps => fun s =>
    (ps 0 s).bind fun r =>
      (all (fun i => ps i.succ) r.state).map fun t =>
        { state := t.state, value := Fin.cases r.value t.value }

/-- The second of two parsers starts in the state that the first has left. -/
theorem zipWith_apply (p : Parser C α) (q : Parser C β) (f : α → β → γ) (s : State C) :
    zipWith p q f s =
      (p s).bind fun r =>
        (q r.state).map fun t => { state := t.state, value := f r.value t.value } := rfl

/-- Merging two values as each parser yields them is to bind one inside the other. -/
theorem zipWith_eq_bind (p : Parser C α) (q : Parser C β) (f : α → β → γ) :
    zipWith p q f = bind p fun a => bind q fun b => succeed (f a b) := by
  funext s
  simp only [zipWith_apply, Outcome.map_eq_bind]
  rfl

/-- A family in sequence is its first member and the sequence of the others. -/
theorem all_succ {n : Nat} {τ : Fin (n + 1) → Type} (ps : (i : Fin (n + 1)) → Parser C (τ i)) :
    all ps = zipWith (ps 0) (all fun i => ps i.succ) fun v vs i => Fin.cases v vs i := rfl

/-- A function of a merged value may be part of the merging. -/
theorem map_zipWith {δ : Type} (p : Parser C α) (q : Parser C β) (f : α → β → γ) (g : γ → δ) :
    map (zipWith p q f) g = zipWith p q fun a b => g (f a b) := by
  funext s
  simp only [map, zipWith_apply, Outcome.map_eq_bind, Outcome.bind_assoc, Outcome.bind_success]
  rfl

/-- To keep the first value is to merge the two by dropping the second. -/
theorem seqLeft_eq_zipWith (p : Parser C α) (q : Parser C β) :
    seqLeft p q = zipWith p q fun a _ => a :=
  map_zipWith p q Prod.mk Prod.fst

/-- To keep the second value is to merge the two by dropping the first. -/
theorem seqRight_eq_zipWith (p : Parser C α) (q : Parser C β) :
    seqRight p q = zipWith p q fun _ b => b :=
  map_zipWith p q Prod.mk Prod.snd

/-- Where the first value is dropped, only the state it leaves matters. -/
theorem seqRight_apply (p : Parser C α) (q : Parser C β) (s : State C) :
    seqRight p q s = (p s).bind fun r => q r.state := by
  simp only [seqRight_eq_zipWith, zipWith_apply, Outcome.map_eq_bind]
  congr 1
  funext r
  exact Outcome.bind_pure (q r.state)

end ContextParser.Parser
