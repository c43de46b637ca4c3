import ContextParser.Parser.Choice

/-!
# Repetition

A repetition runs a parser until it fails; the failed attempt leaves no trace. So that it comes to
an end, `many` stops also after a success that has not moved the cursor, whose value still counts.
`separatedBy` has no such stop: a separator and an item that match nothing go on forever.

How many attempts a loop may make is its budget of rounds, and to run out of it is a fault.

A repetition may be read as a recursion on what is left, which puts a value before those that come
after it, or as a loop that carries along the values it has collected so far (`manyFrom`,
`separatedFrom`). The two readings are equal.
-/

set_option autoImplicit false

namespace ContextParser.Parser

variable {C α β : Type}

/-- Run a parser until it fails or stands still, and collect its values. -/
def many (p : Parser C α) : Nat → Parser C (List α)
  | 0, _ => .fault .outOfBudget
  | rounds + 1, s =>
    match p s with
    | .failure _ => .success { state := s, value := [] }
    | .fault c => .fault c
    | .success r =>
      if r.state.index = s.index then
        .success (r.map fun v => [v])
      else
        (many p rounds r.state).map (·.map (r.value :: ·))

/-- Like `many`, but the first attempt has to succeed. -/
def many1 (p : Parser C α) : Nat → Parser C (List α)
  | 0, _ => .fault .outOfBudget
  | rounds + 1, s =>
    (p s).bind fun r =>
      if r.state.index = s.index then
        .success (r.map fun v => [v])
      else
        (many p rounds r.state).map (·.map (r.value :: ·))

/-- Run a separator and an item in turn until one of them fails, and collect the items. A separator
without an item after it is not consumed. -/
def separatedTail (p : Parser C α) (sep : Parser C β) : Nat → Parser C (List α)
  | 0, _ => .fault .outOfBudget
  | rounds + 1, s =>
    match seqRight sep p s with
    | .failure _ => .success { state := s, value := [] }
    | .fault c => .fault c
    | .success r => (separatedTail p sep rounds r.state).map (·.map (r.value :: ·))

/-- Any number of items with a separator between each two of them. -/
def separatedBy (p : Parser C α) (sep : Parser C β) (rounds : Nat) : Parser C (List α) := fun s =>
  match p s with
  | .failure _ => .success { state := s, value := [] }
  | .fault c => .fault c
  | .success r => (separatedTail p sep rounds r.state).map (·.map (r.value :: ·))

/-- The loop of both repetitions: go on with the values that have been collected so far. -/
def manyFrom (p : Parser C α) : Nat → List α → Parser C (List α)
  | 0, _, _ => .fault .outOfBudget
  | rounds + 1, values, s =>
    match p s with
    | .failure _ => .success { state := s, value := values }
    | .fault c => .fault c
    | .success r =>
      if r.state.index = s.index then
        .success (r.map fun v => values ++ [v])
      else
        manyFrom p rounds (values ++ [r.value]) r.state

/-- The loop of separated items: the state before a separator is kept at hand until the item after
it has succeeded. -/
def separatedFrom (p : Parser C α) (sep : Parser C β) : Nat → List α → Parser C (List α)
  | 0, _, _ => .fault .outOfBudget
  | rounds + 1, values, s =>
    match sep s with
    | .failure _ => .success { state := s, value := values }
    | .fault c => .fault c
    | .success r =>
      match p r.state with
      | .failure _ => .success { state := s, value := values }
      | .fault c => .fault c
      | .success t => separatedFrom p sep rounds (values ++ [t.value]) t.state

/-- The loop puts the values of the remaining rounds behind those collected so far. -/
theorem manyFrom_eq (p : Parser C α) (rounds : Nat) (values : List α) (s : State C) :
    manyFrom p rounds values s = (many p rounds s).map (·.map (values ++ ·)) := by
  induction rounds generalizing values s with
  | zero => rfl
  | succ rounds ih =>
    rw [manyFrom, many]
    cases p s with
    | success r =>
      dsimp only
      split
      · rfl
      · simp only [ih, Outcome.map_map, Success.map, List.append_assoc, List.singleton_append]
    | failure e => simp [Success.map]
    | fault c => rfl

/-- The loop puts the remaining items behind those collected so far. -/
theorem separatedFrom_eq (p : Parser C α) (sep : Parser C β) (rounds : Nat) (values : List α)
    (s : State C) :
    separatedFrom p sep rounds values s =
      (separatedTail p sep rounds s).map (·.map (values ++ ·)) := by
  induction rounds generalizing values s with
  | zero => rfl
  | succ rounds ih =>
    rw [separatedFrom, separatedTail, seqRight_apply]
    cases sep s with
    | success r =>
      dsimp only [Outcome.bind_success]
      cases p r.state with
      | success t =>
        simp only [ih, Outcome.map_map, Success.map, List.append_assoc, List.singleton_append]
      | failure e => simp [Success.map]
      | fault c => rfl
    | failure e => simp [Success.map]
    | fault c => rfl

/-- `many` is the loop that has collected nothing yet. -/
theorem many_eq_manyFrom (p : Parser C α) (rounds : Nat) (s : State C) :
    many p rounds s = manyFrom p rounds [] s := by
  rw [manyFrom_eq]
  cases many p rounds s <;> rfl

/-- `many1` enters the loop with the value of a first attempt that has moved the cursor. -/
theorem many1_eq_manyFrom (p : Parser C α) (rounds : Nat) (s : State C) :
    many1 p (rounds + 1) s =
      (p s).bind fun r =>
        if r.state.index = s.index then
          .success (r.map fun v => [v])
        else
          manyFrom p rounds [r.value] r.state := by
  simp only [manyFrom_eq]
  rfl

/-- `separatedBy` enters the loop with the first item. -/
theorem separatedBy_eq_separatedFrom (p : Parser C α) (sep : Parser C β) (rounds : Nat)
    (s : State C) :
    separatedBy p sep rounds s =
      match p s with
      | .failure _ => .success { state := s, value := [] }
      | .fault c => .fault c
      | .success r => separatedFrom p sep rounds [r.value] r.state := by
  simp only [separatedFrom_eq]
  rfl

end ContextParser.Parser
