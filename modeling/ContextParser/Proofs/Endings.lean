import ContextParser.Proofs.Budget

/-!
# How runs end

Where the runs of a grammar end is told by where the runs of its parts end, without a word on
budgets. Each statement names one way in which a run may go, as a rule of a big-step semantics
would; what the parts need is found by running them under one budget that is enough for all of them.
-/

set_option autoImplicit false

namespace ContextParser.Rules

variable {C : Type} {R : Type → Type} {α β γ : Type} {rules : Rules C R}

/-- What a run ends in, other than for want of a budget, it ends in under every larger budget. -/
theorem EndsIn.of_run {g : Grammar C R α} {s : State C} {o : Outcome (Failure C) (Success C α)}
    (b : Budget) (h : rules.run b g s = o) (ho : o ≠ .fault .outOfBudget) :
    rules.EndsIn g s o :=
  ⟨b, fun _ hle => run_mono hle h ho⟩

/-- One successful run tells what state is reached. -/
theorem Reaches.of_run {g : Grammar C R α} {s : State C} {r : Success C α} (b : Budget)
    (h : rules.run b g s = .success r) : rules.Reaches g s r.state :=
  ⟨r.value, EndsIn.of_run b h (by simp)⟩

/-- One failed run tells that a state is rejected. -/
theorem Rejects.of_run {g : Grammar C R α} {s : State C} {e : Failure C} (b : Budget)
    (h : rules.run b g s = .failure e) : rules.Rejects g s :=
  ⟨e, EndsIn.of_run b h (by simp)⟩

/-- Two runs that end do so under a common budget, and under every larger one. -/
theorem EndsIn.and {g : Grammar C R α} {g' : Grammar C R β} {s s' : State C}
    {o : Outcome (Failure C) (Success C α)} {o' : Outcome (Failure C) (Success C β)}
    (h : rules.EndsIn g s o) (h' : rules.EndsIn g' s' o') :
    ∃ least, ∀ b, least ≤ b → rules.run b g s = o ∧ rules.run b g' s' = o' := by
  obtain ⟨b, hb⟩ := h
  obtain ⟨b', hb'⟩ := h'
  refine ⟨b.max b', fun c hc => ?_⟩
  obtain ⟨hle, hle'⟩ := Budget.le_of_max_le hc
  exact ⟨hb c hle, hb' c hle'⟩

variable {s t u : State C} {b : Budget}

/-! ## Values and sequences -/

/-- A mapped grammar is run and the function applied to its value. -/
theorem run_map (g : Grammar C R α) (f : α → β) :
    rules.run b (.map g f) s = (rules.run b g s).map (·.map f) := rfl

/-- Of two grammars in a row, the second is run where the first has ended. -/
theorem run_zipWith (l : Grammar C R α) (r : Grammar C R β) (f : α → β → γ) :
    rules.run b (.zipWith l r f) s =
      (rules.run b l s).bind fun x =>
        (rules.run b r x.state).map fun y => { state := y.state, value := f x.value y.value } :=
  Parser.zipWith_apply ..

/-- A sequence of a family is the sequence of its head and its tail. -/
theorem run_all_succ {n : Nat} {τ : Fin (n + 1) → Type}
    (gs : (i : Fin (n + 1)) → Grammar C R (τ i)) :
    rules.run b (.all gs) =
      rules.run b (.zipWith (gs 0) (.all fun i => gs i.succ) fun v vs i => Fin.cases v vs i) :=
  rfl

/-- A function of the value has no say in which state is reached. -/
theorem reaches_map_iff {g : Grammar C R α} {f : α → β} :
    rules.Reaches (.map g f) s t ↔ rules.Reaches g s t := by
  constructor
  · rintro ⟨value, least, h⟩
    have hrun := h least least.le_refl
    rw [run_map] at hrun
    cases hg : rules.run least g s with
    | success r =>
      rw [hg] at hrun
      obtain rfl : r.state = t := congrArg Success.state (Outcome.success.inj hrun)
      exact Reaches.of_run least hg
    | failure e => simp [hg] at hrun
    | fault c => simp [hg] at hrun
  · rintro ⟨value, least, h⟩
    have hrun : rules.run least (.map g f) s = .success { state := t, value := f value } := by
      rw [run_map, h least least.le_refl]
      rfl
    exact Reaches.of_run least hrun

/-- A function of the value does not save a grammar from being rejected. -/
theorem rejects_map {g : Grammar C R α} {f : α → β} (h : rules.Rejects g s) :
    rules.Rejects (.map g f) s := by
  obtain ⟨e, least, h⟩ := h
  exact Rejects.of_run least (by rw [run_map, h least least.le_refl]; rfl)

/-- A mapped grammar is rejected only where the grammar is. -/
theorem rejects_of_map {g : Grammar C R α} {f : α → β} (h : rules.Rejects (.map g f) s) :
    rules.Rejects g s := by
  obtain ⟨e, least, h⟩ := h
  have hrun := h least least.le_refl
  rw [run_map] at hrun
  cases hg : rules.run least g s with
  | success r => simp [hg] at hrun
  | failure e => exact Rejects.of_run least hg
  | fault c => simp [hg] at hrun

/-- Two grammars in a row reach what the second reaches from where the first has led. -/
theorem reaches_zipWith {l : Grammar C R α} {r : Grammar C R β} {f : α → β → γ}
    (hl : rules.Reaches l s t) (hr : rules.Reaches r t u) :
    rules.Reaches (.zipWith l r f) s u := by
  obtain ⟨a, hl⟩ := hl
  obtain ⟨a', hr⟩ := hr
  obtain ⟨b, h⟩ := hl.and hr
  obtain ⟨hl, hr⟩ := h b b.le_refl
  have hrun : rules.run b (.zipWith l r f) s = .success { state := u, value := f a a' } := by
    simp only [run_zipWith, hl, Outcome.bind_success, hr, Outcome.map_success]
  exact Reaches.of_run b hrun

/-- What two grammars in a row reach is reached through a state between them. -/
theorem exists_of_reaches_zipWith {l : Grammar C R α} {r : Grammar C R β} {f : α → β → γ}
    (h : rules.Reaches (.zipWith l r f) s u) :
    ∃ t, rules.Reaches l s t ∧ rules.Reaches r t u := by
  obtain ⟨value, b, h⟩ := h
  have hrun := h b b.le_refl
  rw [run_zipWith] at hrun
  cases hl : rules.run b l s with
  | success x =>
    rw [hl, Outcome.bind_success] at hrun
    cases hr : rules.run b r x.state with
    | success y =>
      rw [hr] at hrun
      obtain rfl : y.state = u := congrArg Success.state (Outcome.success.inj hrun)
      exact ⟨x.state, Reaches.of_run b hl, Reaches.of_run b hr⟩
    | failure e => simp [hr] at hrun
    | fault c => simp [hr] at hrun
  | failure e => simp [hl] at hrun
  | fault c => simp [hl] at hrun

/-- Two grammars in a row are rejected where the first is. -/
theorem rejects_zipWith_left {l : Grammar C R α} {r : Grammar C R β} {f : α → β → γ}
    (hl : rules.Rejects l s) : rules.Rejects (.zipWith l r f) s := by
  obtain ⟨e, b, hl⟩ := hl
  have hrun : rules.run b (.zipWith l r f) s = .failure e := by
    simp only [run_zipWith, hl b b.le_refl, Outcome.bind_failure]
  exact Rejects.of_run b hrun

/-- Two grammars in a row are rejected where the second is, behind the first. -/
theorem rejects_zipWith_right {l : Grammar C R α} {r : Grammar C R β} {f : α → β → γ}
    (hl : rules.Reaches l s t) (hr : rules.Rejects r t) : rules.Rejects (.zipWith l r f) s := by
  obtain ⟨a, hl⟩ := hl
  obtain ⟨e, hr⟩ := hr
  obtain ⟨b, h⟩ := hl.and hr
  obtain ⟨hl, hr⟩ := h b b.le_refl
  have hrun : rules.run b (.zipWith l r f) s = .failure e := by
    simp only [run_zipWith, hl, Outcome.bind_success, hr, Outcome.map_failure]
  exact Rejects.of_run b hrun

/-- A family without members stays where it is. -/
theorem reaches_all_zero {τ : Fin 0 → Type} (gs : (i : Fin 0) → Grammar C R (τ i)) (s : State C) :
    rules.Reaches (.all gs) s s :=
  ⟨fun i => i.elim0, { rounds := 0, depth := 0 }, fun _ _ => rfl⟩

section All

variable {n : Nat} {τ : Fin (n + 1) → Type} {gs : (i : Fin (n + 1)) → Grammar C R (τ i)}

/-- A family reaches what its tail reaches from where its head has led. -/
theorem reaches_all_succ (hhead : rules.Reaches (gs 0) s t)
    (htail : rules.Reaches (.all fun i => gs i.succ) t u) : rules.Reaches (.all gs) s u := by
  simp only [Reaches, EndsIn, run_all_succ]
  exact reaches_zipWith hhead htail

/-- A family is rejected where its head is. -/
theorem rejects_all_head (hhead : rules.Rejects (gs 0) s) : rules.Rejects (.all gs) s := by
  simp only [Rejects, EndsIn, run_all_succ]
  exact rejects_zipWith_left hhead

/-- A family is rejected where its tail is, behind its head. -/
theorem rejects_all_tail (hhead : rules.Reaches (gs 0) s t)
    (htail : rules.Rejects (.all fun i => gs i.succ) t) : rules.Rejects (.all gs) s := by
  simp only [Rejects, EndsIn, run_all_succ]
  exact rejects_zipWith_right hhead htail

end All

/-! ## Choices -/

section Any

variable {n : Nat} {gs : Fin (n + 1) → Grammar C R α}

/-- A choice runs its first alternative, and the others only if that one fails. -/
theorem run_any_succ (gs : Fin (n + 1) → Grammar C R α) :
    rules.run b (.any gs) s =
      match rules.run b (gs 0) s with
      | .success r => .success r
      | .failure e =>
        (Parser.firstSuccess s (List.ofFn fun i : Fin n => rules.run b (gs i.succ))).mapFailure
          fun messages => .exhausted (e.message :: messages) s
      | .fault c => .fault c := by
  show Parser.any (List.ofFn fun i => rules.run b (gs i)) s = _
  rw [Parser.any, List.ofFn_succ, Parser.firstSuccess]
  cases rules.run b (gs 0) s with
  | success r => rfl
  | failure e => exact Outcome.mapFailure_mapFailure ..
  | fault c => rfl

/-- A choice is the first success of its alternatives, or the messages of all of them. -/
theorem run_any (gs : Fin n → Grammar C R α) :
    rules.run b (.any gs) s =
      (Parser.firstSuccess s (List.ofFn fun i => rules.run b (gs i))).mapFailure
        (.exhausted · s) := rfl

/-- A choice without alternatives is rejected everywhere. -/
theorem rejects_any_zero (gs : Fin 0 → Grammar C R α) (s : State C) :
    rules.Rejects (.any gs) s :=
  ⟨.exhausted [] s, { rounds := 0, depth := 0 }, fun _ _ => rfl⟩

/-- A choice reaches what its first alternative reaches. -/
theorem reaches_any_head (hhead : rules.Reaches (gs 0) s t) : rules.Reaches (.any gs) s t := by
  obtain ⟨v, b, hhead⟩ := hhead
  have hrun : rules.run b (.any gs) s = .success { state := t, value := v } := by
    rw [run_any_succ, hhead b b.le_refl]
  exact Reaches.of_run b hrun

/-- A choice whose first alternative is rejected reaches what the choice of the others does. -/
theorem reaches_any_tail (hhead : rules.Rejects (gs 0) s)
    (htail : rules.Reaches (.any fun i => gs i.succ) s t) : rules.Reaches (.any gs) s t := by
  obtain ⟨e, hhead⟩ := hhead
  obtain ⟨v, htail⟩ := htail
  obtain ⟨b, h⟩ := hhead.and htail
  obtain ⟨hhead, htail⟩ := h b b.le_refl
  have hrun : rules.run b (.any gs) s = .success { state := t, value := v } := by
    rw [run_any_succ, hhead]
    rw [run_any] at htail
    cases hfirst : Parser.firstSuccess s (List.ofFn fun i : Fin n => rules.run b (gs i.succ)) with
    | success r => rwa [hfirst] at htail
    | failure messages => simp [hfirst] at htail
    | fault c => simp [hfirst] at htail
  exact Reaches.of_run b hrun

/-- A choice is rejected where its first alternative and the choice of the others are. -/
theorem rejects_any_tail (hhead : rules.Rejects (gs 0) s)
    (htail : rules.Rejects (.any fun i => gs i.succ) s) : rules.Rejects (.any gs) s := by
  obtain ⟨e, hhead⟩ := hhead
  obtain ⟨e', htail⟩ := htail
  obtain ⟨b, h⟩ := hhead.and htail
  obtain ⟨hhead, htail⟩ := h b b.le_refl
  rw [run_any] at htail
  cases hfirst : Parser.firstSuccess s (List.ofFn fun i : Fin n => rules.run b (gs i.succ)) with
  | success r => simp [hfirst] at htail
  | failure messages =>
    refine Rejects.of_run b (e := .exhausted (e.message :: messages) s) ?_
    rw [run_any_succ, hhead, hfirst]
    rfl
  | fault c => simp [hfirst] at htail

end Any

/-- An optional grammar reaches what the grammar reaches. -/
theorem reaches_opt {g : Grammar C R α} (h : rules.Reaches g s t) :
    rules.Reaches (.opt g) s t := by
  obtain ⟨v, b, h⟩ := h
  have hrun : rules.run b (.opt g) s = .success { state := t, value := some v } := by
    show Parser.opt (rules.run b g) s = _
    rw [Parser.opt, h b b.le_refl]
    rfl
  exact Reaches.of_run b hrun

/-- An optional grammar stays where the grammar is rejected. -/
theorem reaches_opt_of_rejects {g : Grammar C R α} (h : rules.Rejects g s) :
    rules.Reaches (.opt g) s s := by
  obtain ⟨e, b, h⟩ := h
  have hrun : rules.run b (.opt g) s = .success { state := s, value := none } := by
    show Parser.opt (rules.run b g) s = _
    rw [Parser.opt, h b b.le_refl]
  exact Reaches.of_run b hrun

/-! ## Repetitions -/

/-- With another round for the loop around it, a repetition does what it did before: its parts only
have more rounds than they need. -/
theorem many_of_run {g : Grammar C R α} {b b' : Budget} (hle : b ≤ b') {r : Success C (List α)}
    (h : rules.run b (.many g) s = .success r) :
    Parser.many (rules.run b' g) b.rounds s = .success r := by
  have hsim := Simulation.simulates_run_of_le rules hle g
  have hloop := Simulation.simulates_many hsim (.inl rfl) (m := b.rounds) s s rfl
  have hrun : Parser.many (rules.run b g) b.rounds s = .success r := h
  rw [hrun] at hloop
  exact Simulation.eq_of_agree hloop (by simp)

/-- A repetition stays where its body is rejected. -/
theorem reaches_many_of_rejects {g : Grammar C R α} (h : rules.Rejects g s) :
    rules.Reaches (.many g) s s := by
  obtain ⟨e, least, h⟩ := h
  -- the round that is rejected counts as one
  let b : Budget := { rounds := least.rounds + 1, depth := least.depth }
  have hrun : rules.run b (.many g) s = .success { state := s, value := [] } := by
    show Parser.many (rules.run b g) (least.rounds + 1) s = _
    rw [Parser.many, h b ⟨Nat.le_succ _, Nat.le_refl _⟩]
  exact Reaches.of_run b hrun

/-- A round and the rounds after it have a budget in common, which leaves the loop one round more
than the rounds after the first need. -/
theorem exists_round {g : Grammar C R α} (h : rules.Reaches g s t)
    (hrest : rules.Reaches (.many g) t u) :
    ∃ (b : Budget) (rounds : Nat) (v : α) (vs : List α), b.rounds = rounds + 1 ∧
      rules.run b g s = .success { state := t, value := v } ∧
      Parser.many (rules.run b g) rounds t = .success { state := u, value := vs } := by
  obtain ⟨v, h⟩ := h
  obtain ⟨vs, hrest⟩ := hrest
  obtain ⟨least, hboth⟩ := h.and hrest
  let b : Budget := { rounds := least.rounds + 1, depth := least.depth }
  have hle : least ≤ b := ⟨Nat.le_succ _, Nat.le_refl _⟩
  -- the round itself may have the larger budget, but the loop behind it keeps the smaller one
  have hloop := many_of_run hle (hboth least least.le_refl).2
  exact ⟨b, least.rounds, v, vs, rfl, (hboth b hle).1, hloop⟩

/-- A repetition goes on behind a round that has moved the cursor. -/
theorem reaches_many_step {g : Grammar C R α} (h : rules.Reaches g s t) (hmoved : t.index ≠ s.index)
    (hrest : rules.Reaches (.many g) t u) : rules.Reaches (.many g) s u := by
  obtain ⟨b, rounds, v, vs, hrounds, hround, hloop⟩ := exists_round h hrest
  have hrun : rules.run b (.many g) s = .success { state := u, value := v :: vs } := by
    show Parser.many (rules.run b g) b.rounds s = _
    rw [hrounds, Parser.many, hround]
    simp only [if_neg hmoved, hloop]
    rfl
  exact Reaches.of_run b hrun

/-- A repetition that has to succeed once goes on like any other behind its first round. -/
theorem reaches_many1 {g : Grammar C R α} (h : rules.Reaches g s t) (hmoved : t.index ≠ s.index)
    (hrest : rules.Reaches (.many g) t u) : rules.Reaches (.many1 g) s u := by
  obtain ⟨b, rounds, v, vs, hrounds, hround, hloop⟩ := exists_round h hrest
  have hrun : rules.run b (.many1 g) s = .success { state := u, value := v :: vs } := by
    show Parser.many1 (rules.run b g) b.rounds s = _
    rw [hrounds, Parser.many1, hround]
    simp only [Outcome.bind_success, if_neg hmoved, hloop]
    rfl
  exact Reaches.of_run b hrun

/-- A repetition that has to succeed once is rejected where its body is. -/
theorem rejects_many1 {g : Grammar C R α} (h : rules.Rejects g s) :
    rules.Rejects (.many1 g) s := by
  obtain ⟨e, least, h⟩ := h
  let b : Budget := { rounds := least.rounds + 1, depth := least.depth }
  have hrun : rules.run b (.many1 g) s = .failure e := by
    show Parser.many1 (rules.run b g) (least.rounds + 1) s = _
    rw [Parser.many1, h b ⟨Nat.le_succ _, Nat.le_refl _⟩]
    rfl
  exact Rejects.of_run b hrun

/-! ## Rules -/

/-- A call runs the grammar of the rule with one level of calls less. -/
theorem run_call (rule : R α) {rounds depth : Nat} :
    rules.run { rounds, depth := depth + 1 } (.call rule) s =
      rules.run { rounds, depth } (rules.body rule) s := rfl

/-- A reference reaches what the body of its rule reaches. -/
theorem reaches_call {rule : R α} (h : rules.Reaches (rules.body rule) s t) :
    rules.Reaches (.call rule) s t := by
  obtain ⟨v, least, h⟩ := h
  exact Reaches.of_run _ ((run_call rule).trans (h least least.le_refl))

/-- A reference is rejected where the body of its rule is. -/
theorem rejects_call {rule : R α} (h : rules.Rejects (rules.body rule) s) :
    rules.Rejects (.call rule) s := by
  obtain ⟨e, least, h⟩ := h
  exact Rejects.of_run _ ((run_call rule).trans (h least least.le_refl))

end ContextParser.Rules
