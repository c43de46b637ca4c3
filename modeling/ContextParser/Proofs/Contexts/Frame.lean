import Mathlib.Logic.Relation
import ContextParser.Proofs.CursorSafety

/-!
# Where contexts come from

A context changes where the grammar says that it does, and nowhere else. Whatever the functions are
that a grammar applies to the context, the one in which a run ends is the one in which it started
with some of these changes made to it, one after the other (`context_endState_changed`); and without
any such function it is the one in which the run started (`context_endState`). This holds of
successes and of failures, and also where predicates, values and the grammars made from them depend
on the context.
-/

set_option autoImplicit false

namespace ContextParser

open Relation (ReflTransGen)

variable {C : Type} {R : Type → Type} {α : Type}

/-- A move of the cursor leaves the context as it is. -/
theorem State.context_of_advance {s t : State C} {length : Nat} (h : s.advance length = .ok t) :
    t.context = s.context := by
  rw [advance] at h
  split at h
  · obtain rfl := Except.ok.inj h
    rfl
  · simp at h

namespace Contract

/-- To change the context by steps of the given kind only. -/
def changes (step : C → C → Prop) : Contract C where
  starts _ := True
  leads s t := ReflTransGen step s.context t.context
  reports s e := ReflTransGen step s.context e.state.context
  faults _ := True
  leads_refl _ := .refl
  leads_trans := .trans
  starts_of_leads _ _ := trivial
  reports_mismatch _ _ := .refl
  reports_exhausted _ _ := .refl
  reports_label _ h := h
  reports_of_leads := .trans
  faults_outOfBudget := trivial

namespace changes

variable {step : C → C → Prop}

/-- `when` only moves the cursor, wherever it starts and whatever its predicate looks at. -/
theorem kept_when (predicate : State C → Option Nat) (message : String) :
    (changes step).Kept (Parser.when predicate message) := by
  intro s _
  unfold Parser.when
  cases Text.cut s.index s.text.toList with
  | error c => exact trivial
  | ok parts =>
    rw [Outcome.ofExcept, Outcome.bind_success]
    cases predicate s with
    | none => exact ReflTransGen.refl
    | some length =>
      dsimp only
      split
      · cases hadvance : s.advance length with
        | error c => exact trivial
        | ok t =>
          show ReflTransGen step s.context t.context
          rw [State.context_of_advance hadvance]
      · exact trivial

/-- A literal only moves the cursor. -/
theorem kept_literal (text : String) : (changes step).Kept (Parser.literal text) :=
  kept_map (kept_when _ _) _

end changes

end Contract

namespace Grammar

/-- A node whose changes of the context are steps of the given kind. Nothing is known of the parsers
from outside. -/
def ChangesContextBy (step : C → C → Prop) : {α : Type} → Grammar C R α → Prop
  | _, modifyContext _ f => ∀ c a, step c (f c a)
  | _, custom _ => False
  | _, _ => True

/-- A node that does not change the context. -/
def LeavesContext : {α : Type} → Grammar C R α → Prop
  | _, modifyContext _ _ => False
  | _, custom _ => False
  | _, _ => True

/-- A node that does not change the context changes it by steps of any kind. -/
theorem changesContextBy_of_leavesContext (step : C → C → Prop) (g : Grammar C R α)
    (hg : g.LeavesContext) : g.ChangesContextBy step := by
  cases g with
  | modifyContext => exact hg.elim
  | custom => exact hg.elim
  | _ => exact trivial

end Grammar

/-- Every node whose changes are steps of a kind leads from context to context by such steps. -/
theorem Contract.covers_changes {step : C → C → Prop} (g : Grammar C R α)
    (hg : g.ChangesContextBy step) : (changes step).Covers g := by
  cases g with
  | when predicate message => exact changes.kept_when predicate message
  | custom => exact hg.elim
  | endOfText => exact changes.kept_when _ _
  | literal text => exact changes.kept_literal text
  | keyword text => exact kept_seqLeft (changes.kept_literal text) (changes.kept_when _ _)
  | wordBoundary => exact changes.kept_when _ _
  | whitespace => exact changes.kept_when _ _
  | whitespaceChar => exact changes.kept_when _ _
  | charSpan initial following => exact kept_map (kept_withText (changes.kept_when _ _)) _
  | modifyContext grammar f => exact fun a t _ => .single (hg t.context a)
  | _ => exact trivial

/-- The context in which a run ends is the one in which it started after some steps of the kind
that the grammar makes. -/
theorem context_endState_changed {step : C → C → Prop} {rules : Rules C R}
    (hrules : rules.Everywhere (Grammar.ChangesContextBy step)) {g : Grammar C R α}
    (hg : g.Everywhere (Grammar.ChangesContextBy step)) (budget : Budget) {s t : State C}
    (ht : (rules.run budget g s).endState? = some t) :
    ReflTransGen step s.context t.context := by
  have hkept := Contract.kept_run (fun rule => (hrules rule).mono Contract.covers_changes) budget
    (hg.mono Contract.covers_changes)
  exact Contract.leads_endState id (hkept s trivial) ht

/-- A grammar that does not change the context ends every run, in success and in failure, with the
context with which the run started. -/
theorem context_endState {rules : Rules C R} (hrules : rules.Everywhere Grammar.LeavesContext)
    {g : Grammar C R α} (hg : g.Everywhere Grammar.LeavesContext) (budget : Budget) {s t : State C}
    (ht : (rules.run budget g s).endState? = some t) : t.context = s.context := by
  have hnone {β : Type} : ∀ g : Grammar C R β, g.LeavesContext →
      g.ChangesContextBy fun _ _ => False := Grammar.changesContextBy_of_leavesContext _
  have hsteps := context_endState_changed (fun rule => (hrules rule).mono hnone) (hg.mono hnone)
    budget ht
  obtain hsame | ⟨_, _, h⟩ := hsteps.cases_tail
  · exact hsame
  · exact h.elim

/-- The name of one rule. -/
inductive QuotaRule : Type → Type where
  | taken : QuotaRule Nat

/-- A rule that takes as many bytes as the context allows, and tells how many are left to take. The
repeated grammar is made from the context. -/
def quotaRules : Rules Nat QuotaRule where
  body
    | .taken =>
      .bind .context fun quota =>
        .mapWith
          (.many (.when (fun s => if s.index < quota then some 1 else none) "Expected quota"))
          fun units quota => quota - units.length

/-- The failure at the third of three bytes, of which two may be taken. -/
theorem context_endState_quota :
    ∃ t, (quotaRules.run { rounds := 3, depth := 1 } (.seqLeft (.call .taken) .endOfText)
        (.start "abc" 2)).endState? = some t ∧ t.index = 2 ∧ t.context = 2 := by
  have hrules : quotaRules.Everywhere Grammar.LeavesContext := by
    rintro _ ⟨⟩
    exact ⟨trivial, trivial, fun _ => ⟨trivial, trivial, trivial⟩⟩
  have hg : (.seqLeft (.call .taken) .endOfText : Grammar Nat QuotaRule Nat).Everywhere
      Grammar.LeavesContext := ⟨trivial, trivial, trivial, trivial⟩
  exact ⟨{ text := "abc", index := 2, context := 2 }, rfl, rfl,
    context_endState hrules hg { rounds := 3, depth := 1 } (s := .start "abc" 2) rfl⟩

end ContextParser
