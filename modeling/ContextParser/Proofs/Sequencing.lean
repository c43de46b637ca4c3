import Mathlib.Data.List.OfFn
import ContextParser.Parser.Sequence

/-!
# The laws of sequences

`succeed` and `bind` make a monad of parsers, and every other way to run parsers in sequence is
`bind` in another shape. Both are equations between parsers: they hold of values and states, of
failures with all that they report, and of faults.

A sequence of a family is decided by its first member that does not succeed. `Arrives` tells in
which state a run comes to a member; from there on the failure or the fault of that member is the
outcome of the whole, and what stands behind it is never run.

The values of a sequence come in tuples, and which shape the tuples have is a matter of taste.
`Tupling` has all the shapes: whatever way a sequence is cut into tuples of tuples, the parser it
describes is the one of its members in order (`Tupling.map_values`).
-/

set_option autoImplicit false

namespace ContextParser

/-- What keeps a computation from a success: its failure or its fault. -/
def Outcome.obstacle? {ε α : Type} : Outcome ε α → Option (ε ⊕ Fault)
  | success _ => none
  | failure e => some (.inl e)
  | fault c => some (.inr c)

namespace Outcome

variable {ε α β : Type} {o : Outcome ε α}

/-- A mapped value puts no obstacle in the way and takes none out of it. -/
theorem obstacle?_map (f : α → β) : (o.map f).obstacle? = o.obstacle? := by
  cases o <;> rfl

/-- Behind an obstacle nothing is run: the obstacle is that of the whole. -/
theorem obstacle?_bind {f : α → Outcome ε β} {x : ε ⊕ Fault} (h : o.obstacle? = some x) :
    (o.bind f).obstacle? = some x := by
  cases o with
  | success a => simp [obstacle?] at h
  | failure e => exact h
  | fault c => exact h

/-- A computation fails where the obstacle is a failure. -/
theorem eq_failure_iff {e : ε} : o = .failure e ↔ o.obstacle? = some (.inl e) := by
  cases o <;> simp [obstacle?]

/-- A computation faults where the obstacle is a fault. -/
theorem eq_fault_iff {c : Fault} : o = .fault c ↔ o.obstacle? = some (.inr c) := by
  cases o <;> simp [obstacle?]

end Outcome

namespace Parser

variable {C α β γ : Type}

/-! ## The monad -/

/-- A parser that succeeds at once hands over its value, in the same state. -/
theorem succeed_bind (value : α) (f : α → Parser C β) : bind (succeed value) f = f value := rfl

/-- To go on with nothing but a success changes nothing. -/
theorem bind_succeed (p : Parser C α) : bind p succeed = p := by
  funext s
  exact Outcome.bind_pure (p s)

/-- Of three parsers in sequence it does not matter which two are put together first. -/
theorem bind_assoc (p : Parser C α) (f : α → Parser C β) (g : β → Parser C γ) :
    bind (bind p f) g = bind p fun a => bind (f a) g := by
  funext s
  exact Outcome.bind_assoc (p s) _ _

/-- A mapped value is a parser followed by a success with the new value. -/
theorem map_eq_bind (p : Parser C α) (f : α → β) : map p f = bind p fun a => succeed (f a) := by
  funext s
  exact Outcome.map_eq_bind _ (p s)

/-- A value mapped in view of the context is a parser followed by a look at the context. -/
theorem mapWith_eq_bind (p : Parser C α) (f : α → C → β) :
    mapWith p f = bind p fun a => bind context fun c => succeed (f a c) := by
  funext s
  exact Outcome.map_eq_bind _ (p s)

/-- A modified context is a parser followed by a success with the old value in the new context. -/
theorem modifyContext_eq_bind (p : Parser C α) (f : C → α → C) :
    modifyContext p f = bind p fun a s => succeed a (s.withContext (f s.context a)) := by
  funext s
  exact Outcome.map_eq_bind _ (p s)

/-- A pair is two parsers in sequence, followed by a success with both values. -/
theorem both_eq_bind (p : Parser C α) (q : Parser C β) :
    both p q = bind p fun a => bind q fun b => succeed (a, b) :=
  zipWith_eq_bind p q Prod.mk

/-- A sequence that keeps the left value forgets that of the second parser. -/
theorem seqLeft_eq_bind (p : Parser C α) (q : Parser C β) :
    seqLeft p q = bind p fun a => bind q fun _ => succeed a := by
  simp only [seqLeft, both_eq_bind, map_eq_bind, bind_assoc, succeed_bind]

/-- A sequence that keeps the right value forgets that of the first parser. -/
theorem seqRight_eq_bind (p : Parser C α) (q : Parser C β) :
    seqRight p q = bind p fun _ => q := by
  simp only [seqRight, both_eq_bind, map_eq_bind, bind_assoc, succeed_bind, bind_succeed]

/-- A parser between two others is three in sequence, of which the middle value is kept. -/
theorem between_eq_bind (p : Parser C α) (left : Parser C β) (right : Parser C γ) :
    between p left right = bind left fun _ => bind p fun a => bind right fun _ => succeed a := by
  rw [between, seqRight_eq_bind, seqLeft_eq_bind]

/-- Of three parsers with the middle value kept, either end may be put on first. -/
theorem seqRight_seqLeft (p : Parser C α) (q : Parser C β) (r : Parser C γ) :
    seqRight p (seqLeft q r) = seqLeft (seqRight p q) r := by
  simp only [seqLeft_eq_bind, seqRight_eq_bind, bind_assoc]

/-! ## Families in sequence -/

section Family

variable {n : Nat} {τ : Fin n → Type}

/-- Bind the members of a family one inside the other, and go on with all their values. -/
def bindAll : {n : Nat} → {τ : Fin n → Type} → ((i : Fin n) → Parser C (τ i)) →
    (((i : Fin n) → τ i) → Parser C β) → Parser C β
  | 0, _, _, next => next fun i => i.elim0
  | n + 1, _, ps, next =>
    bind (ps ⟨0, n.succ_pos⟩) fun v =>
      bindAll (fun i => ps i.succ) fun vs => next (Fin.cases v vs)

/-- To go on behind a family is to go on behind its last member with the values of all. -/
theorem bind_all (ps : (i : Fin n) → Parser C (τ i)) (next : ((i : Fin n) → τ i) → Parser C β) :
    bind (all ps) next = bindAll ps next := by
  induction n with
  | zero => rfl
  | succ n ih =>
    rw [all_succ, zipWith_eq_bind, bind_assoc, bindAll]
    congr 1
    funext v
    rw [bind_assoc, ← ih]
    rfl

/-- A family in sequence is its members bound one inside the other. -/
theorem all_eq_bindAll (ps : (i : Fin n) → Parser C (τ i)) : all ps = bindAll ps succeed := by
  rw [← bind_all, bind_succeed]

/-- Two parsers in sequence are a family of two. -/
theorem both_eq_map_all {τ : Fin 2 → Type} (ps : (i : Fin 2) → Parser C (τ i)) :
    both (ps 0) (ps 1) = map (all ps) fun vs => (vs 0, vs 1) := by
  rw [both_eq_bind, map_eq_bind, bind_all]
  rfl

/-- Three parsers of which the middle one counts are a family of three. -/
theorem between_eq_map_all {τ : Fin 3 → Type} (ps : (i : Fin 3) → Parser C (τ i)) :
    between (ps 1) (ps 0) (ps 2) = map (all ps) fun vs => vs 1 := by
  rw [between_eq_bind, map_eq_bind, bind_all]
  rfl

/-- Started from a state, a family comes to one of its members in a state: all members before it
have succeeded, each from the state that the one before has left. -/
inductive Arrives : {n : Nat} → {τ : Fin n → Type} → ((i : Fin n) → Parser C (τ i)) → State C →
    Fin n → State C → Prop where
  | first {n : Nat} {τ : Fin (n + 1) → Type} (ps : (i : Fin (n + 1)) → Parser C (τ i))
      (s : State C) : Arrives ps s 0 s
  | later {n : Nat} {τ : Fin (n + 1) → Type} {ps : (i : Fin (n + 1)) → Parser C (τ i)}
      {s t : State C} {r : Success C (τ 0)} {i : Fin n} (h : ps 0 s = .success r)
      (hrest : Arrives (fun i => ps i.succ) r.state i t) : Arrives ps s i.succ t

/-- What stops a family at one of its members stops all of it, whatever the later members are. -/
theorem all_of_arrives {ps qs : (i : Fin n) → Parser C (τ i)} {s t : State C} {i : Fin n}
    {x : Failure C ⊕ Fault} (h : Arrives ps s i t) (hstop : (ps i t).obstacle? = some x)
    (hsame : ∀ j, j ≤ i → qs j = ps j) : (all qs s).obstacle? = some x := by
  induction h with
  | first ps s =>
    have hhead : qs 0 = ps 0 := hsame 0 (Fin.le_refl 0)
    rw [all_succ, zipWith_apply, hhead]
    exact Outcome.obstacle?_bind hstop
  | @later n τ ps s t r i h _ ih =>
    have hhead : qs 0 s = .success r := by rw [hsame 0 (Fin.zero_le _), h]
    rw [all_succ, zipWith_apply, hhead, Outcome.bind_success, Outcome.obstacle?_map]
    exact ih hstop fun j hj => hsame j.succ (Fin.succ_le_succ_iff.2 hj)

/-- What stops a family is what stops the first of its members that does not succeed. -/
theorem all_obstacle?_iff {ps : (i : Fin n) → Parser C (τ i)} {s : State C}
    {x : Failure C ⊕ Fault} :
    (all ps s).obstacle? = some x ↔ ∃ i t, Arrives ps s i t ∧ (ps i t).obstacle? = some x := by
  constructor
  · intro hstop
    induction n generalizing s with
    | zero => simp [all, Outcome.obstacle?] at hstop
    | succ n ih =>
      rw [all_succ, zipWith_apply] at hstop
      cases hhead : ps 0 s with
      | success r =>
        rw [hhead, Outcome.bind_success, Outcome.obstacle?_map] at hstop
        obtain ⟨i, t, harrives, hi⟩ := ih hstop
        exact ⟨i.succ, t, .later hhead harrives, hi⟩
      | failure e =>
        rw [hhead] at hstop
        exact ⟨0, s, .first ps s, by rw [hhead]; exact hstop⟩
      | fault c =>
        rw [hhead] at hstop
        exact ⟨0, s, .first ps s, by rw [hhead]; exact hstop⟩
  · rintro ⟨i, t, harrives, hstop⟩
    exact all_of_arrives harrives hstop fun _ _ => rfl

end Family

/-! ## Tuples of tuples -/

/-- A way to cut a sequence of parsers into tuples. The members are parsers of the values of types
`τ i`; a tuple may hold members, pairs and other tuples. -/
inductive Tupling (C : Type) {ι : Type} (τ : ι → Type) : Type where
  | single (i : ι) (parser : Parser C (τ i))
  | both (left right : Tupling C τ)
  | all {n : Nat} (parts : Fin n → Tupling C τ)

namespace Tupling

variable {ι : Type} {τ : ι → Type}

/-- The tuples of a certain shape. -/
def Value : Tupling C τ → Type
  | single i _ => τ i
  | both left right => left.Value × right.Value
  | all parts => (k : Fin _) → (parts k).Value

/-- The parser of tuples of a certain shape. -/
def parser : (t : Tupling C τ) → Parser C t.Value
  | single _ p => p
  | both left right => Parser.both left.parser right.parser
  | all parts => Parser.all fun k => (parts k).parser

/-- The members in the order in which they are run. -/
def members : Tupling C τ → List ((i : ι) × Parser C (τ i))
  | single i p => [⟨i, p⟩]
  | both left right => left.members ++ right.members
  | all parts => (List.ofFn fun k => (parts k).members).flatten

/-- The values of the members in a tuple. -/
def values : (t : Tupling C τ) → t.Value → List ((i : ι) × τ i)
  | single i _, v => [⟨i, v⟩]
  | both left right, v => left.values v.1 ++ right.values v.2
  | all parts, vs => (List.ofFn fun k => (parts k).values (vs k)).flatten

/-- Run parsers one after the other and list their values. -/
def inSequence : List ((i : ι) × Parser C (τ i)) → Parser C (List ((i : ι) × τ i))
  | [] => succeed []
  | ⟨i, p⟩ :: ps => bind p fun v => bind (inSequence ps) fun vs => succeed (⟨i, v⟩ :: vs)

/-- Two sequences run one after the other are one, and their values one list. -/
theorem inSequence_append (ps qs : List ((i : ι) × Parser C (τ i))) :
    inSequence (ps ++ qs) =
      bind (inSequence ps) fun vs => bind (inSequence qs) fun ws => succeed (vs ++ ws) := by
  induction ps with
  | nil => simp only [List.nil_append, inSequence, succeed_bind, bind_succeed]
  | cons p ps ih =>
    simp only [List.cons_append, inSequence, ih, bind_assoc, succeed_bind]

/-- One family in a tuple, where its members may be tuples themselves. -/
theorem map_all {n : Nat} {σ : Fin n → Type} (ps : (k : Fin n) → Parser C (σ k))
    (values : (k : Fin n) → σ k → List ((i : ι) × τ i))
    (members : Fin n → List ((i : ι) × Parser C (τ i)))
    (h : ∀ k, map (ps k) (values k) = inSequence (members k)) :
    map (Parser.all ps) (fun vs => (List.ofFn fun k => values k (vs k)).flatten) =
      inSequence (List.ofFn members).flatten := by
  induction n with
  | zero => rfl
  | succ n ih =>
    have htail := ih (fun k => ps k.succ) (fun k => values k.succ) (fun k => members k.succ)
      fun k => h k.succ
    rw [List.ofFn_succ, List.flatten_cons, inSequence_append, ← h 0, ← htail, all_succ,
      zipWith_eq_bind]
    simp only [map_eq_bind, bind_assoc, succeed_bind, List.ofFn_succ, List.flatten_cons,
      Fin.cases_zero, Fin.cases_succ]

/-- Whatever the tuples look like, the members are run in order. -/
theorem map_values (t : Tupling C τ) : map t.parser t.values = inSequence t.members := by
  induction t with
  | single i p => exact map_eq_bind p _
  | both left right ihleft ihright =>
    show map (Parser.both left.parser right.parser) (fun v => left.values v.1 ++ right.values v.2) =
      inSequence (left.members ++ right.members)
    rw [inSequence_append, ← ihleft, ← ihright, both_eq_bind]
    simp only [map_eq_bind, bind_assoc, succeed_bind]
  | all parts ih => exact map_all _ _ _ ih

/-- A tuple has as many values as its shape has members. -/
theorem length_values (t : Tupling C τ) (v : t.Value) :
    (t.values v).length = t.members.length := by
  induction t with
  | single i p => rfl
  | both left right ihleft ihright =>
    rw [values, members, List.length_append, List.length_append, ihleft, ihright]
  | all parts ih =>
    simp [values, members, List.length_flatten, List.map_ofFn, Function.comp_def, ih]

/-- A list of values is that of one tuple only, for how many values each part has is settled by the
shape. -/
theorem values_injective (t : Tupling C τ) : Function.Injective t.values := by
  induction t with
  | single i p =>
    intro v w h
    have hlists : [(⟨i, v⟩ : (i : ι) × τ i)] = [⟨i, w⟩] := h
    obtain ⟨-, hvalues⟩ := Sigma.mk.inj (List.head_eq_of_cons_eq hlists)
    exact eq_of_heq hvalues
  | both left right ihleft ihright =>
    intro v w h
    have hlength : (left.values v.1).length = (left.values w.1).length := by
      rw [length_values, length_values]
    obtain ⟨hl, hr⟩ := List.append_inj h hlength
    exact Prod.ext (ihleft hl) (ihright hr)
  | all parts ih =>
    intro v w h
    -- lists that are flattened can be told apart as soon as their lengths are known
    have hlengths : ∀ u : (all parts).Value,
        (List.ofFn fun k => (parts k).values (u k)).map List.length =
          List.ofFn fun k => (parts k).members.length := fun u => by
      simp only [List.map_ofFn, Function.comp_def, length_values]
    have hparts : (List.ofFn fun k => (parts k).values (v k)) =
        List.ofFn fun k => (parts k).values (w k) :=
      List.eq_iff_flatten_eq.2 ⟨h, by rw [hlengths, hlengths]⟩
    funext k
    exact ih k (congrFun (List.ofFn_injective hparts) k)

end Tupling

/-- The laws of sequences. `succeed` and `bind` are a monad. A sequence of a family is made of binds
one inside the other; what stops it is what stops the first of its members that does not succeed,
run from where those before it have led, and the members behind that one do not matter. Two ways to
cut the same members into tuples give the same parser but for the shape of the values. All other
sequences are made of `bind`, `succeed` and, where the context is asked for or replaced, of the
state that has been reached. -/
theorem sequences_are_binds (p : Parser C α) (q : Parser C β) (r : Parser C γ) :
    (∀ (value : α) (f : α → Parser C β), bind (succeed value) f = f value) ∧
    bind p succeed = p ∧
    (∀ (f : α → Parser C β) (g : β → Parser C γ),
      bind (bind p f) g = bind p fun a => bind (f a) g) ∧
    (∀ {n : Nat} {τ : Fin n → Type} (ps : (i : Fin n) → Parser C (τ i)),
      all ps = bindAll ps succeed ∧
      (∀ s e, all ps s = .failure e ↔ ∃ i t, Arrives ps s i t ∧ ps i t = .failure e) ∧
      (∀ s c, all ps s = .fault c ↔ ∃ i t, Arrives ps s i t ∧ ps i t = .fault c) ∧
      ∀ (qs : (i : Fin n) → Parser C (τ i)) s i t, Arrives ps s i t → (∀ j, j ≤ i → qs j = ps j) →
        (∀ e, ps i t = .failure e → all qs s = .failure e) ∧
        ∀ c, ps i t = .fault c → all qs s = .fault c) ∧
    (∀ {ι : Type} {τ : ι → Type} (t t' : Tupling C τ), t.members = t'.members →
      map t.parser t.values = map t'.parser t'.values ∧
      Function.Injective t.values ∧ Function.Injective t'.values) ∧
    (∀ {τ : Fin 2 → Type} (ps : (i : Fin 2) → Parser C (τ i)),
      both (ps 0) (ps 1) = map (all ps) fun vs => (vs 0, vs 1)) ∧
    (∀ {τ : Fin 3 → Type} (ps : (i : Fin 3) → Parser C (τ i)),
      between (ps 1) (ps 0) (ps 2) = map (all ps) fun vs => vs 1) ∧
    both p q = bind p (fun a => bind q fun b => succeed (a, b)) ∧
    (∀ f : α → β → γ, zipWith p q f = bind p fun a => bind q fun b => succeed (f a b)) ∧
    seqLeft p q = bind p (fun a => bind q fun _ => succeed a) ∧
    seqRight p q = bind p (fun _ => bind q succeed) ∧
    between p q r = bind q (fun _ => bind p fun a => bind r fun _ => succeed a) ∧
    (∀ f : α → β, map p f = bind p fun a => succeed (f a)) ∧
    (∀ f : α → C → β, mapWith p f = bind p fun a => bind context fun c => succeed (f a c)) ∧
    ∀ f : C → α → C, modifyContext p f =
      bind p fun a s => succeed a (s.withContext (f s.context a)) := by
  refine ⟨succeed_bind, bind_succeed p, bind_assoc p, ?_, ?_, ?_, ?_, both_eq_bind p q,
    zipWith_eq_bind p q, seqLeft_eq_bind p q, ?_, between_eq_bind p q r, map_eq_bind p,
    mapWith_eq_bind p, modifyContext_eq_bind p⟩
  · intro n τ ps
    refine ⟨all_eq_bindAll ps, ?_, ?_, ?_⟩
    · intro s e
      simp only [Outcome.eq_failure_iff, all_obstacle?_iff]
    · intro s c
      simp only [Outcome.eq_fault_iff, all_obstacle?_iff]
    · intro qs s i t harrives hsame
      simp only [Outcome.eq_failure_iff, Outcome.eq_fault_iff]
      exact ⟨fun _ h => all_of_arrives harrives h hsame, fun _ h => all_of_arrives harrives h hsame⟩
  · intro ι τ t t' hmembers
    refine ⟨?_, t.values_injective, t'.values_injective⟩
    rw [t.map_values, t'.map_values, hmembers]
  · exact fun ps => both_eq_map_all ps
  · exact fun ps => between_eq_map_all ps
  · rw [seqRight_eq_bind, bind_succeed]

/-- Add to the context, give up, and leave the rest to another parser. -/
def givenUp (rest : Parser Nat Nat) : (i : Fin 3) → Parser Nat Nat
  | 0 => modifyContext (succeed 2) (· + ·)
  | 1 => fail "Enough"
  | 2 => rest

/-- The failure of the second member keeps the context that the first one has left, also where the
third one would end every run in a fault. -/
theorem sequences_are_binds_givenUp :
    all (givenUp fun _ => .fault .outOfBudget) (.start "ab" 1) =
      .failure { kind := .mismatch, message := "Enough",
                 state := { text := "ab", index := 0, context := 3 } } := by
  obtain ⟨-, -, -, hall, -⟩ := sequences_are_binds (succeed () : Parser Nat Unit)
    (succeed () : Parser Nat Unit) (succeed () : Parser Nat Unit)
  obtain ⟨-, -, -, hstop⟩ := hall (givenUp (succeed 0))
  let reached : Success Nat Nat :=
    { state := { text := "ab", index := 0, context := 3 }, value := 2 }
  have hfirst : givenUp (succeed 0) 0 (.start "ab" 1) = .success reached := rfl
  have harrives : Arrives (givenUp (succeed 0)) (.start "ab" 1) 1 reached.state :=
    Arrives.later (i := 0) hfirst (.first _ _)
  have hsame : ∀ j, j ≤ 1 → givenUp (fun _ => .fault .outOfBudget) j = givenUp (succeed 0) j
    | 0, _ => rfl
    | 1, _ => rfl
    | 2, h => absurd h (by decide)
  exact (hstop _ _ 1 _ harrives hsame).1 _ rfl

end Parser

end ContextParser
