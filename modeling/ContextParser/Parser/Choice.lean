import ContextParser.Parser.Sequence
import ContextParser.Text.Boundary

/-!
# Choice

A choice gives every alternative the same state, and the first success wins even where a later
alternative would consume more. What a failed alternative did to its state is gone with it.
-/

set_option autoImplicit false

namespace ContextParser.Parser

variable {C α : Type}

/-- The first success of some parsers on one state, or the messages of all their failures. -/
def firstSuccess (s : State C) : List (Parser C α) → Outcome (List String) (Success C α)
  | [] => .failure []
  | p :: ps =>
    match p s with
    | .success r => .success r
    | .failure e => (firstSuccess s ps).mapFailure (e.message :: ·)
    | .fault c => .fault c

/-- Run the alternatives in order on the same state until one succeeds. If none does, fail at that
state with the messages of all of them, one per line. -/
def any (ps : List (Parser C α)) : Parser C α := fun s =>
  (firstSuccess s ps).mapFailure (.exhausted · s)

/-- The choice among alternatives that are written out one by one: the messages so far are at hand
while the remaining alternatives are tried. -/
def anyFrom (s : State C) (messages : List String) :
    {n : Nat} → (Fin n → Parser C α) → Outcome (Failure C) (Success C α)
  | 0, _ => .failure (.exhausted messages s)
  | n + 1, ps =>
    match ps ⟨0, n.succ_pos⟩ s with
    | .success r => .success r
    | .failure e => anyFrom s (messages ++ [e.message]) fun i => ps i.succ
    | .fault c => .fault c

/-- Run the alternatives of a tuple in order on the same state until one succeeds. -/
def anyTuple {n : Nat} (ps : Fin n → Parser C α) : Parser C α := fun s =>
  anyFrom s [] ps

/-- The choice of two. -/
def or (p q : Parser C α) : Parser C α :=
  any [p, q]

/-- Make a parser optional: where it fails, yield nothing and consume nothing. -/
def opt (p : Parser C α) : Parser C (Option α) := fun s =>
  match p s with
  | .success r => .success (r.map some)
  | .failure _ => .success { state := s, value := none }
  | .fault c => .fault c

/-- Replace the message of a failure; its kind and state stay. -/
def label (p : Parser C α) (message : String) : Parser C α := fun s =>
  (p s).mapFailure ({ · with message })

/-- Yield also the part of the text between the cursor before and the cursor after, or nothing
where the two do not delimit a part of the text. -/
def withText (p : Parser C α) : Parser C (α × String) := fun s =>
  (p s).map fun r =>
    r.map (·, String.ofList ((Text.slice? s.index r.state.index s.text.toList).getD []))

/-- A choice that has collected some messages puts those of the remaining alternatives behind
them. -/
theorem anyFrom_eq (s : State C) (messages : List String) {n : Nat} (ps : Fin n → Parser C α) :
    anyFrom s messages ps =
      (firstSuccess s (List.ofFn ps)).mapFailure fun later => .exhausted (messages ++ later) s := by
  induction n generalizing messages with
  | zero => simp [anyFrom, firstSuccess]
  | succ n ih =>
    rw [anyFrom, Fin.zero_eta, List.ofFn_succ, firstSuccess]
    cases ps 0 s with
    | success r => rfl
    | failure e =>
      simp only [ih, Outcome.mapFailure_mapFailure, List.append_assoc, List.singleton_append]
    | fault c => rfl

/-- A tuple of alternatives and the list of them make the same choice. -/
theorem anyTuple_eq_any {n : Nat} (ps : Fin n → Parser C α) : anyTuple ps = any (List.ofFn ps) := by
  funext s
  rw [anyTuple, anyFrom_eq, any]
  rfl

end ContextParser.Parser
