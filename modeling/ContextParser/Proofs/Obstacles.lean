import Mathlib.Logic.Relation
import ContextParser.Proofs.CursorSafety
import ContextParser.Proofs.Sequencing

/-!
# What stops a run

A run that does not succeed has been stopped by an attempt at one of its parts. The leaves of the
library are stopped by text that does not match, and never for want of a budget (`Parser.IsPlain`).
A loop makes a success of the failure that ends it, so only a fault can stop it. Such a fault is one
of an attempt at the body: more rounds than there are characters left are enough for a loop that
moves the cursor in every round (`Parser.many_eq_fault`, `Parser.separatedTail_eq_fault`).
-/

set_option autoImplicit false

namespace ContextParser

open Relation (ReflTransGen)

variable {C α β : Type}

namespace Outcome

variable {ε ε' : Type} {o : Outcome ε α} {e : ε} {c : Fault}

/-- An answer that a function has made comes from an answer. -/
theorem map_eq_success_iff {f : α → β} {b : β} :
    o.map f = .success b ↔ ∃ a, o = .success a ∧ f a = b := by
  cases o with
  | success a => simp
  | failure e => simp
  | fault c => simp

/-- A function of the answer makes no failures and loses none. -/
theorem map_eq_failure_iff {f : α → β} : o.map f = .failure e ↔ o = .failure e := by
  rw [eq_failure_iff, obstacle?_map, ← eq_failure_iff]

/-- A function of the answer makes no faults and loses none. -/
theorem map_eq_fault_iff {f : α → β} : o.map f = .fault c ↔ o = .fault c := by
  rw [eq_fault_iff, obstacle?_map, ← eq_fault_iff]

/-- A sequence is stopped by what stops its first part, or by what stops the part behind it. -/
theorem obstacle?_bind_iff {f : α → Outcome ε β} {x : ε ⊕ Fault} :
    (o.bind f).obstacle? = some x ↔
      o.obstacle? = some x ∨ ∃ a, o = .success a ∧ (f a).obstacle? = some x := by
  cases o with
  | success a => simp [obstacle?]
  | failure e => simp [obstacle?]
  | fault c => simp [obstacle?]

/-- Two computations in a row fail where the first fails, or where the second fails behind it. -/
theorem bind_eq_failure_iff {f : α → Outcome ε β} :
    o.bind f = .failure e ↔ o = .failure e ∨ ∃ a, o = .success a ∧ f a = .failure e := by
  simp only [eq_failure_iff, obstacle?_bind_iff]

/-- Two computations in a row break off where the first does, or where the second does behind it. -/
theorem bind_eq_fault_iff {f : α → Outcome ε β} :
    o.bind f = .fault c ↔ o = .fault c ∨ ∃ a, o = .success a ∧ f a = .fault c := by
  simp only [eq_fault_iff, obstacle?_bind_iff]

/-- To change the errors makes no faults and loses none. -/
theorem mapFailure_eq_fault_iff {f : ε → ε'} : o.mapFailure f = .fault c ↔ o = .fault c := by
  cases o with
  | success a => simp
  | failure e => simp
  | fault c' => simp

/-- A failure is a mismatch, and a fault is not for want of a budget. -/
def IsPlain : Outcome (Failure C) α → Prop
  | success _ => True
  | failure e => e.kind = .mismatch
  | fault c => c ≠ .outOfBudget

/-- Two plain computations in a row are plain. -/
theorem IsPlain.bind {o : Outcome (Failure C) α} {f : α → Outcome (Failure C) β} (ho : o.IsPlain)
    (hf : ∀ a, (f a).IsPlain) : (o.bind f).IsPlain := by
  cases o with
  | success a => exact hf a
  | failure e => exact ho
  | fault c => exact ho

/-- A function of the answer leaves a computation plain. -/
theorem IsPlain.map {o : Outcome (Failure C) α} (ho : o.IsPlain) (f : α → β) :
    (o.map f).IsPlain := by
  rw [map_eq_bind]
  exact ho.bind fun _ => trivial

end Outcome

namespace Parser

/-! ## Leaves -/

/-- A parser whose failures are all mismatches, and which is never out of budget. -/
def IsPlain (p : Parser C α) : Prop :=
  ∀ s, (p s).IsPlain

namespace IsPlain

variable {p : Parser C α} {q : Parser C β}

/-- Every failure of a plain parser is a mismatch. -/
theorem kind_of_failure (hp : p.IsPlain) {s : State C} {e : Failure C} (h : p s = .failure e) :
    e.kind = .mismatch := by
  have hs := hp s
  rw [h] at hs
  exact hs

/-- A plain parser is never out of budget. -/
theorem ne_outOfBudget (hp : p.IsPlain) (s : State C) : p s ≠ .fault .outOfBudget := by
  intro h
  have hs := hp s
  rw [h] at hs
  exact hs rfl

/-- A function of the value leaves a parser plain. -/
theorem map (hp : p.IsPlain) (f : α → β) : (Parser.map p f).IsPlain := fun s =>
  Outcome.IsPlain.map (hp s) _

/-- A plain parser stays plain where it yields the consumed text too. -/
theorem withText (hp : p.IsPlain) : (Parser.withText p).IsPlain := fun s =>
  Outcome.IsPlain.map (hp s) _

/-- Two plain parsers in a row are plain. -/
theorem seqLeft (hp : p.IsPlain) (hq : q.IsPlain) : (Parser.seqLeft p q).IsPlain := by
  intro s
  rw [seqLeft_eq_bind]
  exact (hp s).bind fun r => (hq r.state).bind fun _ => trivial

end IsPlain

/-- Whatever the predicate asks for, `when` fails with a mismatch and needs no budget. -/
theorem isPlain_when (predicate : State C → Option Nat) (message : String) :
    (when predicate message).IsPlain := by
  intro s
  have hcut : (Outcome.ofExcept (Text.cut s.index s.text.toList) :
      Outcome (Failure C) (List Char × List Char)).IsPlain := by
    rw [Text.cut]
    cases Text.splitAt? s.index s.text.toList with
    | none => exact Fault.noConfusion
    | some parts => exact trivial
  have hadvance : ∀ length,
      (Outcome.ofExcept (s.advance length) : Outcome (Failure C) (State C)).IsPlain := by
    intro length
    rw [State.advance]
    split
    · exact trivial
    · exact Fault.noConfusion
  -- neither the cut before the predicate nor the move behind it needs a budget
  refine hcut.bind fun parts => ?_
  cases predicate s with
  | none => exact rfl
  | some length =>
    dsimp only
    split
    · exact (hadvance length).map _
    · exact Fault.noConfusion

/-- The parser for the end of the text is plain. -/
theorem isPlain_endOfText : (endOfText : Parser C Unit).IsPlain :=
  isPlain_when _ _

/-- The parser for word boundaries is plain. -/
theorem isPlain_wordBoundary : (wordBoundary : Parser C Unit).IsPlain :=
  isPlain_when _ _

/-- The parser for whitespace is plain. -/
theorem isPlain_whitespace : (whitespace : Parser C Unit).IsPlain :=
  isPlain_when _ _

/-- The parser for one whitespace character is plain. -/
theorem isPlain_whitespaceChar : (whitespaceChar : Parser C Unit).IsPlain :=
  isPlain_when _ _

/-- The parser of a fixed text is plain. -/
theorem isPlain_literal (text : String) : (literal text : Parser C String).IsPlain :=
  (isPlain_when _ _).map _

/-- The parser of a keyword is plain. -/
theorem isPlain_keyword (text : String) : (keyword text : Parser C String).IsPlain :=
  (isPlain_literal text).seqLeft isPlain_wordBoundary

/-- The parser of a span is plain. -/
theorem isPlain_charSpan (initial following : Char → Bool) :
    (charSpan initial following : Parser C String).IsPlain :=
  (isPlain_when _ _).withText.map _

/-! ## Choices and labels -/

variable {p : Parser C α} {sep : Parser C β} {rounds : Nat} {s : State C} {e : Failure C}
  {c : Fault}

/-- A choice breaks off at its first alternative, or at a later one if the first has failed. -/
theorem any_cons_eq_fault_iff {ps : List (Parser C α)} :
    any (p :: ps) s = .fault c ↔
      p s = .fault c ∨ (∃ e, p s = .failure e) ∧ any ps s = .fault c := by
  simp only [any, Outcome.mapFailure_eq_fault_iff]
  rw [firstSuccess]
  cases p s with
  | success r => simp
  | failure e => simp [Outcome.mapFailure_eq_fault_iff]
  | fault c' => simp

/-- A choice is stopped by an alternative that faults where all alternatives before it fail. -/
theorem any_ofFn_eq_fault {n : Nat} {ps : Fin n → Parser C α}
    (h : any (List.ofFn ps) s = .fault c) :
    ∃ i, (∀ j, j < i → ∃ e, ps j s = .failure e) ∧ ps i s = .fault c := by
  induction n with
  | zero =>
    rw [List.ofFn_zero] at h
    cases h
  | succ n ih =>
    rw [List.ofFn_succ] at h
    rcases any_cons_eq_fault_iff.1 h with hhead | ⟨hhead, htail⟩
    · exact ⟨0, fun j hj => absurd hj (Fin.not_lt_zero j), hhead⟩
    · obtain ⟨i, hbefore, hi⟩ := ih htail
      refine ⟨i.succ, fun j hj => ?_, hi⟩
      cases j using Fin.cases with
      | zero => exact hhead
      | succ j => exact hbefore j (Fin.succ_lt_succ_iff.1 hj)

/-- An optional parser never fails. -/
theorem opt_ne_failure (p : Parser C α) (s : State C) (e : Failure C) :
    opt p s ≠ .failure e := by
  unfold opt
  cases p s with
  | success r => simp
  | failure e' => simp
  | fault c => simp

/-- To make a parser optional recovers from failures and not from faults. -/
theorem opt_eq_fault_iff : opt p s = .fault c ↔ p s = .fault c := by
  unfold opt
  cases p s with
  | success r => simp
  | failure e => simp
  | fault c' => simp

/-- A label keeps all of a failure but its message. -/
theorem label_eq_failure {message : String} (h : label p message s = .failure e) :
    ∃ e', p s = .failure e' ∧ e.kind = e'.kind ∧ e.state = e'.state := by
  unfold label at h
  cases hrun : p s with
  | success r => simp [hrun] at h
  | failure e' =>
    rw [hrun] at h
    obtain rfl := Outcome.failure.inj h
    exact ⟨e', rfl, rfl, rfl⟩
  | fault c => simp [hrun] at h

/-- A sequence fails at its first part or, where that succeeds, at its second. -/
theorem seqRight_eq_failure_iff :
    seqRight sep p s = .failure e ↔
      sep s = .failure e ∨ ∃ r, sep s = .success r ∧ p r.state = .failure e := by
  rw [seqRight_apply, Outcome.bind_eq_failure_iff]

/-- A sequence breaks off at its first part or, where that succeeds, at its second. -/
theorem seqRight_eq_fault_iff :
    seqRight sep p s = .fault c ↔
      sep s = .fault c ∨ ∃ r, sep s = .success r ∧ p r.state = .fault c := by
  rw [seqRight_apply, Outcome.bind_eq_fault_iff]

/-! ## Loops -/

/-- One turn of a list: the value of a parser and the values of what goes on from there, or no
values at all where the parser fails. -/
def turn (p : Parser C α) (next : Parser C (List α)) : Parser C (List α) := fun s =>
  match p s with
  | .failure _ => .success { state := s, value := [] }
  | .fault c => .fault c
  | .success r => (next r.state).map (·.map (r.value :: ·))

/-- A round of separated items is a turn of a separator and an item behind it. -/
theorem separatedTail_succ (p : Parser C α) (sep : Parser C β) (rounds : Nat) :
    separatedTail p sep (rounds + 1) = turn (seqRight sep p) (separatedTail p sep rounds) := by
  funext s
  exact rfl

/-- Separated items start with a turn of an item alone. -/
theorem separatedBy_eq_turn (p : Parser C α) (sep : Parser C β) (rounds : Nat) :
    separatedBy p sep rounds = turn p (separatedTail p sep rounds) := by
  funext s
  exact rfl

/-- A turn does not fail if what goes on from there does not. -/
theorem turn_ne_failure {next : Parser C (List α)} (hnext : ∀ t, next t ≠ .failure e) :
    turn p next s ≠ .failure e := by
  intro h
  rw [turn] at h
  cases hrun : p s with
  | success r =>
    simp only [hrun] at h
    exact hnext r.state (Outcome.map_eq_failure_iff.1 h)
  | failure e' => simp [hrun] at h
  | fault c => simp [hrun] at h

/-- A turn breaks off at its parser, or in what goes on from there. -/
theorem turn_eq_fault_iff {next : Parser C (List α)} :
    turn p next s = .fault c ↔
      p s = .fault c ∨ ∃ r, p s = .success r ∧ next r.state = .fault c := by
  rw [turn]
  cases hrun : p s with
  | success r => simp [Outcome.map_eq_fault_iff]
  | failure e => simp
  | fault c' => simp

/-- A turn yields nothing where its parser fails, and otherwise one value before the rest. -/
theorem turn_eq_success_iff {next : Parser C (List α)} {t : State C} {values : List α} :
    turn p next s = .success { state := t, value := values } ↔
      ((∃ e, p s = .failure e) ∧ t = s ∧ values = []) ∨
      ∃ r rest, p s = .success r ∧ next r.state = .success { state := t, value := rest } ∧
        values = r.value :: rest := by
  rw [turn]
  cases hrun : p s with
  | success r =>
    simp only [Outcome.map_eq_success_iff]
    constructor
    · rintro ⟨⟨t, rest⟩, hrest, hsame⟩
      cases hsame
      exact .inr ⟨r, rest, rfl, hrest, rfl⟩
    · rintro (⟨⟨e, he⟩, -, -⟩ | ⟨r', rest, hr, hrest, rfl⟩)
      · cases he
      · cases hr
        exact ⟨_, hrest, rfl⟩
  | failure e => simp [eq_comm]
  | fault c => simp

/-- Further separated items never fail, there may just be none. -/
theorem separatedTail_ne_failure (p : Parser C α) (sep : Parser C β) (rounds : Nat) (s : State C)
    (e : Failure C) : separatedTail p sep rounds s ≠ .failure e := by
  induction rounds generalizing s with
  | zero => simp [separatedTail]
  | succ rounds ih =>
    rw [separatedTail_succ]
    exact turn_ne_failure ih

/-- Separated items never fail, there may just be none. -/
theorem separatedBy_ne_failure (p : Parser C α) (sep : Parser C β) (rounds : Nat) (s : State C)
    (e : Failure C) : separatedBy p sep rounds s ≠ .failure e := by
  rw [separatedBy_eq_turn]
  exact turn_ne_failure fun t => separatedTail_ne_failure p sep rounds t e

/-- A repetition that may be empty never fails. -/
theorem many_ne_failure (p : Parser C α) (rounds : Nat) (s : State C) (e : Failure C) :
    many p rounds s ≠ .failure e := by
  induction rounds generalizing s with
  | zero => simp [many]
  | succ rounds ih =>
    intro h
    rw [many] at h
    cases hrun : p s with
    | success r =>
      simp only [hrun] at h
      split at h
      · simp at h
      · exact ih r.state (Outcome.map_eq_failure_iff.1 h)
    | failure e' => simp [hrun] at h
    | fault c => simp [hrun] at h

/-- The first round of a repetition is the only one whose failure is passed on. -/
theorem many1_eq_failure (h : many1 p rounds s = .failure e) : p s = .failure e := by
  cases rounds with
  | zero => simp [many1] at h
  | succ rounds =>
    rw [many1] at h
    rcases Outcome.bind_eq_failure_iff.1 h with h | ⟨r, -, h⟩
    · exact h
    · split at h
      · simp at h
      · exact absurd (Outcome.map_eq_failure_iff.1 h) (many_ne_failure p rounds r.state e)

/-- The two repetitions differ in what they make of a failure in the first round, not of a fault. -/
theorem many1_eq_fault_iff : many1 p rounds s = .fault c ↔ many p rounds s = .fault c := by
  cases rounds with
  | zero => exact Iff.rfl
  | succ rounds =>
    rw [many1, many]
    cases p s with
    | success r => exact Iff.rfl
    | failure e => simp
    | fault c' => exact Iff.rfl

/-- From the first state, a parser succeeds in the second, and the cursor has moved. -/
def Moves (p : Parser C α) (s t : State C) : Prop :=
  ∃ r, p s = .success r ∧ r.state = t ∧ t.index ≠ s.index

end Parser

namespace State.Ahead

variable {s t : State C}

/-- What is before the cursor is taken off by moving it forward. -/
theorem exists_remaining_eq (hs : s.WellFormed) (h : s.Ahead t) :
    ∃ front, s.remaining = front ++ t.remaining ∧ t.index = s.index + Text.byteLength front := by
  have hsame : s.consumed ++ s.remaining = t.consumed ++ t.remaining := by
    rw [append_of_wellFormed hs, append_of_wellFormed h.wellFormed, h.text_eq]
  have hle : Text.byteLength s.consumed ≤ Text.byteLength t.consumed := by
    rw [byteLength_consumed hs, byteLength_consumed h.wellFormed]
    exact h.index_le
  obtain ⟨front, hfront⟩ := Text.exists_append_of_byteLength_le hsame hle
  refine ⟨front, ?_, ?_⟩
  · rw [hfront, List.append_assoc] at hsame
    exact List.append_cancel_left hsame
  · rw [← byteLength_consumed h.wellFormed, hfront, Text.byteLength_append, byteLength_consumed hs]

/-- A state ahead has no more characters before it. -/
theorem length_remaining_le (hs : s.WellFormed) (h : s.Ahead t) :
    t.remaining.length ≤ s.remaining.length := by
  obtain ⟨front, hremaining, -⟩ := h.exists_remaining_eq hs
  simp [hremaining]

/-- A state ahead whose cursor has moved has fewer characters before it. -/
theorem length_remaining_lt (hs : s.WellFormed) (h : s.Ahead t) (hmoved : t.index ≠ s.index) :
    t.remaining.length < s.remaining.length := by
  obtain ⟨front, hremaining, hindex⟩ := h.exists_remaining_eq hs
  cases front with
  | nil => exact absurd hindex hmoved
  | cons c cs =>
    rw [hremaining, List.length_append, List.length_cons]
    omega

end State.Ahead

namespace Parser

variable {p : Parser C α} {sep : Parser C β} {rounds : Nat} {s : State C} {c : Fault}

/-- A parser whose successes keep the text and leave the cursor on a boundary that is not before the
one at the start. -/
def GoesAhead (p : Parser C α) : Prop :=
  ∀ (s : State C) (r : Success C α), s.WellFormed → p s = .success r → s.Ahead r.state

/-- A parser that moves forward succeeds in states ahead. -/
theorem MovesForward.ahead (hp : p.MovesForward) (hs : s.WellFormed) {r : Success C α}
    (h : p s = .success r) : s.Ahead r.state :=
  hp s hs r.state (by rw [h]; rfl)

/-- A parser that moves forward in every run does so in its successes. -/
theorem MovesForward.goesAhead (hp : p.MovesForward) : p.GoesAhead := fun _ _ hs h =>
  hp.ahead hs h

/-- A member of a family is tried where the members before it have led. -/
theorem Arrives.ahead {n : Nat} {τ : Fin n → Type} {ps : (i : Fin n) → Parser C (τ i)}
    (hps : ∀ i, (ps i).MovesForward) {t : State C} (hs : s.WellFormed) {i : Fin n}
    (h : Arrives ps s i t) : s.Ahead t := by
  induction h with
  | first ps s => exact .refl hs
  | later hhead hrest ih =>
    have hfirst := (hps 0).ahead hs hhead
    exact hfirst.trans (ih (fun i => hps i.succ) hfirst.wellFormed)

/-- The induction is on the rounds. One that goes on has taken a character at least. -/
theorem many_eq_fault (hp : p.GoesAhead) (hs : s.WellFormed)
    (hrounds : s.remaining.length < rounds) (h : many p rounds s = .fault c) :
    ∃ t, ReflTransGen p.Moves s t ∧ p t = .fault c := by
  induction rounds generalizing s with
  | zero => omega
  | succ rounds ih =>
    rw [many] at h
    cases hrun : p s with
    | success r =>
      simp only [hrun] at h
      have hahead := hp s r hs hrun
      split at h
      · simp at h
      · next hmoved =>
        have hshorter := hahead.length_remaining_lt hs hmoved
        obtain ⟨t, hmoves, ht⟩ :=
          ih hahead.wellFormed (by omega) (Outcome.map_eq_fault_iff.1 h)
        exact ⟨t, .head ⟨r, hrun, rfl, hmoved⟩ hmoves, ht⟩
    | failure e => simp [hrun] at h
    | fault c' =>
      simp only [hrun] at h
      obtain rfl := Outcome.fault.inj h
      exact ⟨s, .refl, hrun⟩

/-- This loop goes on also after a round that stands still, so no round may stand
still. -/
theorem separatedTail_eq_fault (hround : (seqRight sep p).GoesAhead)
    (hmoves : ∀ {s r}, s.WellFormed → seqRight sep p s = .success r → r.state.index ≠ s.index)
    (hs : s.WellFormed) (hrounds : s.remaining.length < rounds)
    (h : separatedTail p sep rounds s = .fault c) :
    ∃ t, ReflTransGen (seqRight sep p).Moves s t ∧ seqRight sep p t = .fault c := by
  induction rounds generalizing s with
  | zero => omega
  | succ rounds ih =>
    rw [separatedTail_succ] at h
    rcases turn_eq_fault_iff.1 h with h | ⟨r, hrun, h⟩
    · exact ⟨s, .refl, h⟩
    · have hahead := hround s r hs hrun
      have hmoved := hmoves hs hrun
      have hshorter := hahead.length_remaining_lt hs hmoved
      obtain ⟨t, hrest, ht⟩ := ih hahead.wellFormed (by omega) h
      exact ⟨t, .head ⟨r, hrun, rfl, hmoved⟩ hrest, ht⟩

end Parser

/-! ## Successes that go ahead -/

/-- To go ahead in success; of failures and faults nothing is demanded. -/
def Contract.ahead (C : Type) : Contract C where
  starts := State.WellFormed
  leads := State.Ahead
  reports _ _ := True
  faults _ := True
  leads_refl := State.Ahead.refl
  leads_trans := State.Ahead.trans
  starts_of_leads _ h := h.wellFormed
  reports_mismatch _ _ := trivial
  reports_exhausted _ _ := trivial
  reports_label _ _ := trivial
  reports_of_leads _ _ := trivial
  faults_outOfBudget := trivial

/-- To go ahead is to keep the contract that asks for it. -/
theorem Contract.kept_ahead_iff {p : Parser C α} : (Contract.ahead C).Kept p ↔ p.GoesAhead := by
  constructor
  · intro hp s r hs hrun
    have h := hp s hs
    rw [hrun] at h
    exact h
  · intro hp s hs
    cases hrun : p s with
    | success r => exact hp s r hs hrun
    | failure e => exact trivial
    | fault c => exact trivial

end ContextParser
