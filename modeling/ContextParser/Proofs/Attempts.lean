import Mathlib.Logic.Relation
import ContextParser.Proofs.Budget
import ContextParser.Proofs.Obstacles

/-!
# Attempts

A run of a grammar is made of attempts: the grammar is tried from a state, and for that its parts
are tried, each from a state of its own. Which parts, and from which states, depends on how the
attempts before them end; so a part that is written in the grammar need not be tried at all, and the
body of a loop may be tried from many states.

`Starts` tells which attempts another one starts directly. A reference to a rule starts nothing by
itself, it opens the body of the rule. So what an attempt `Enters` belongs to the grammar that is
tried, and what it `Visits` includes the bodies of all rules that are opened on the way.

No attempt goes back: the cursor of a part is not before the one of the whole (`Starts.ahead`).
-/

set_option autoImplicit false

namespace ContextParser

open Relation (ReflTransGen)

/-- A grammar, and the state from which it is tried. -/
structure Attempt (C : Type) (R : Type → Type) where
  {value : Type}
  grammar : Grammar C R value
  state : State C

namespace Rules

variable {C : Type} {R : Type → Type} {α : Type}

/-- Runs from the first state succeed in the second, and the cursor has moved. -/
def Advances (rules : Rules C R) (g : Grammar C R α) (s t : State C) : Prop :=
  rules.Reaches g s t ∧ t.index ≠ s.index

/-- The attempts that are started for the sake of another one: its grammar is a part of the other
grammar, and the parts that are tried before it have led to its state. -/
def Starts (rules : Rules C R) : Attempt C R → Attempt C R → Prop
  | ⟨.delay grammar, s⟩, part => part = ⟨grammar (), s⟩
  | ⟨.bind grammar next, s⟩, part =>
    part = ⟨grammar, s⟩ ∨
      ∃ r, rules.EndsIn grammar s (.success r) ∧ part = ⟨next r.value, r.state⟩
  | ⟨.map grammar _, s⟩, part => part = ⟨grammar, s⟩
  | ⟨.mapWith grammar _, s⟩, part => part = ⟨grammar, s⟩
  | ⟨.modifyContext grammar _, s⟩, part => part = ⟨grammar, s⟩
  | ⟨.zipWith left right _, s⟩, part =>
    part = ⟨left, s⟩ ∨ ∃ t, rules.Reaches left s t ∧ part = ⟨right, t⟩
  | ⟨.all grammars, s⟩, part =>
    ∃ budget i t, Parser.Arrives (fun j => rules.run budget (grammars j)) s i t ∧
      part = ⟨grammars i, t⟩
  | ⟨.any grammars, s⟩, part =>
    ∃ i, (∀ j, j < i → rules.Rejects (grammars j) s) ∧ part = ⟨grammars i, s⟩
  | ⟨.many grammar, s⟩, part =>
    ∃ t, ReflTransGen (rules.Advances grammar) s t ∧ part = ⟨grammar, t⟩
  | ⟨.many1 grammar, s⟩, part =>
    ∃ t, ReflTransGen (rules.Advances grammar) s t ∧ part = ⟨grammar, t⟩
  | ⟨.separatedBy grammar separator, s⟩, part =>
    part = ⟨grammar, s⟩ ∨
      ∃ t u, rules.Reaches grammar s t ∧
        ReflTransGen (rules.Reaches (.seqRight separator grammar)) t u ∧
        (part = ⟨separator, u⟩ ∨ ∃ v, rules.Reaches separator u v ∧ part = ⟨grammar, v⟩)
  | ⟨.opt grammar, s⟩, part => part = ⟨grammar, s⟩
  | ⟨.label grammar _, s⟩, part => part = ⟨grammar, s⟩
  | ⟨.withText grammar, s⟩, part => part = ⟨grammar, s⟩
  | _, _ => False

/-- A reference to a rule opens the body of the rule. -/
def Opens (rules : Rules C R) : Attempt C R → Attempt C R → Prop
  | ⟨.call rule, s⟩, body => body = ⟨rules.body rule, s⟩
  | _, _ => False

/-- The attempts that are started on the way of another one, itself included, where references to
rules are not followed. -/
def Enters (rules : Rules C R) : Attempt C R → Attempt C R → Prop :=
  ReflTransGen rules.Starts

/-- The attempts that are started on the way of another one, itself included, also in the bodies of
rules. -/
def Visits (rules : Rules C R) : Attempt C R → Attempt C R → Prop :=
  ReflTransGen fun attempt part => rules.Starts attempt part ∨ rules.Opens attempt part

/-! ## The way of the cursor -/

section Forward

variable {rules : Rules C R} (hrules : rules.Everywhere Grammar.IsForward) {g : Grammar C R α}
  {s t : State C}

include hrules

/-- A grammar that only moves forward does so under every budget. -/
theorem movesForward_run (hg : g.Everywhere Grammar.IsForward) (budget : Budget) :
    (rules.run budget g).MovesForward := by
  have hcovers : ∀ {β : Type} (g : Grammar C R β), g.IsForward →
      (Contract.cursor C (fun _ => True) trivial).Covers g := fun _ hnode =>
    Contract.covers_of_isForward (fun _ => trivial) hnode
  exact Contract.movesForward_of_kept
    (Contract.kept_run (fun rule => (hrules rule).mono hcovers) budget (hg.mono hcovers))

/-- A state that a grammar reaches is ahead of the one from which it was tried. -/
theorem Reaches.ahead (hg : g.Everywhere Grammar.IsForward) (hs : s.WellFormed)
    (h : rules.Reaches g s t) : s.Ahead t := by
  obtain ⟨value, least, hends⟩ := h
  exact (movesForward_run hrules hg least).ahead hs (hends least least.le_refl)

/-- Any number of successes in a row lead forward. -/
theorem ahead_of_reflTransGen {step : State C → State C → Prop}
    (hstep : ∀ {t u}, step t u → rules.Reaches g t u) (hg : g.Everywhere Grammar.IsForward)
    (hs : s.WellFormed) (h : ReflTransGen step s t) : s.Ahead t := by
  induction h with
  | refl => exact .refl hs
  | tail _ hlast ih => exact ih.trans (Reaches.ahead hrules hg ih.wellFormed (hstep hlast))

end Forward

/-- What holds everywhere in a grammar holds everywhere in the parts that are tried. -/
theorem Starts.everywhere {rules : Rules C R} {P : {α : Type} → Grammar C R α → Prop}
    {attempt part : Attempt C R} (hstarts : rules.Starts attempt part)
    (h : attempt.grammar.Everywhere P) : part.grammar.Everywhere P := by
  obtain ⟨g, s⟩ := attempt
  cases g with
  | bind grammar next =>
    obtain rfl | ⟨r, -, rfl⟩ := hstarts
    · exact h.2.1
    · exact h.2.2 r.value
  | zipWith left right f =>
    obtain rfl | ⟨t, -, rfl⟩ := hstarts
    · exact h.2.1
    · exact h.2.2
  | all grammars =>
    obtain ⟨budget, i, t, -, rfl⟩ := hstarts
    exact h.2 i
  | any grammars =>
    obtain ⟨i, -, rfl⟩ := hstarts
    exact h.2 i
  | many grammar =>
    obtain ⟨t, -, rfl⟩ := hstarts
    exact h.2
  | many1 grammar =>
    obtain ⟨t, -, rfl⟩ := hstarts
    exact h.2
  | separatedBy grammar separator =>
    obtain rfl | ⟨t, u, -, -, rfl | ⟨v, -, rfl⟩⟩ := hstarts
    · exact h.2.1
    · exact h.2.2
    · exact h.2.1
  | delay | map | mapWith | modifyContext | opt | label | withText =>
    obtain rfl := hstarts
    exact h.2
  | _ => exact hstarts.elim

/-- An attempt is started ahead of the one for whose sake it is started. -/
theorem Starts.ahead {rules : Rules C R} (hrules : rules.Everywhere Grammar.IsForward)
    {attempt part : Attempt C R} (hstarts : rules.Starts attempt part)
    (h : attempt.grammar.Everywhere Grammar.IsForward) (hs : attempt.state.WellFormed) :
    attempt.state.Ahead part.state := by
  obtain ⟨g, s⟩ := attempt
  -- a part is tried on the spot, or behind other parts that have succeeded
  have hstay : s.Ahead s := .refl hs
  cases g with
  | bind grammar next =>
    obtain rfl | ⟨r, hends, rfl⟩ := hstarts
    · exact hstay
    · exact Reaches.ahead hrules h.2.1 hs ⟨r.value, hends⟩
  | zipWith left right f =>
    obtain rfl | ⟨t, hleft, rfl⟩ := hstarts
    · exact hstay
    · exact Reaches.ahead hrules h.2.1 hs hleft
  | all grammars =>
    obtain ⟨budget, i, t, harrives, rfl⟩ := hstarts
    exact Parser.Arrives.ahead (fun i => movesForward_run hrules (h.2 i) budget) hs harrives
  | any grammars =>
    obtain ⟨i, -, rfl⟩ := hstarts
    exact hstay
  | many grammar =>
    obtain ⟨t, hrounds, rfl⟩ := hstarts
    exact ahead_of_reflTransGen hrules And.left h.2 hs hrounds
  | many1 grammar =>
    obtain ⟨t, hrounds, rfl⟩ := hstarts
    exact ahead_of_reflTransGen hrules And.left h.2 hs hrounds
  | separatedBy grammar separator =>
    have hround : (Grammar.seqRight separator grammar).Everywhere Grammar.IsForward :=
      ⟨trivial, trivial, h.2.2, h.2.1⟩
    obtain rfl | ⟨t, u, hfirst, hrounds, hlast⟩ := hstarts
    · exact hstay
    · have ht := Reaches.ahead hrules h.2.1 hs hfirst
      have hu := ht.trans (ahead_of_reflTransGen hrules id hround ht.wellFormed hrounds)
      obtain rfl | ⟨v, hseparator, rfl⟩ := hlast
      · exact hu
      · exact hu.trans (Reaches.ahead hrules h.2.2 hu.wellFormed hseparator)
  | delay | map | mapWith | modifyContext | opt | label | withText =>
    obtain rfl := hstarts
    exact hstay
  | _ => exact hstarts.elim

/-- Every attempt on the way of another is ahead of it, and its grammar only moves forward. -/
theorem Enters.ahead {rules : Rules C R} (hrules : rules.Everywhere Grammar.IsForward)
    {attempt part : Attempt C R} (henters : rules.Enters attempt part)
    (h : attempt.grammar.Everywhere Grammar.IsForward) (hs : attempt.state.WellFormed) :
    attempt.state.Ahead part.state ∧ part.grammar.Everywhere Grammar.IsForward := by
  induction henters with
  | refl => exact ⟨.refl hs, h⟩
  | tail _ hstarts ih =>
    obtain ⟨hahead, hforward⟩ := ih
    have hnext := hstarts.ahead hrules hforward hahead.wellFormed
    exact ⟨hahead.trans hnext, hstarts.everywhere hforward⟩

end Rules

end ContextParser
