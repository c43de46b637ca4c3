import ContextParser.Grammar.Rules
import ContextParser.Proofs.Contract.Parser

/-!
# Contracts of grammars

What a grammar is built from is said by a property of its nodes that holds everywhere in it, in the
grammars that `bind` makes at run time and those that `delay` builds too. If everywhere in a grammar
and in its rules the nodes are ones that a contract covers, then every run of the grammar keeps the
contract, whatever the budget (`kept_run`).
-/

set_option autoImplicit false

namespace ContextParser

namespace Grammar

variable {C : Type} {R : Type → Type}

/-- A property holds of a grammar and of all grammars inside it. -/
def Everywhere (P : {α : Type} → Grammar C R α → Prop) : {α : Type} → Grammar C R α → Prop
  | _, delay grammar => P (delay grammar) ∧ Everywhere P (grammar ())
  | _, bind grammar next =>
    P (bind grammar next) ∧ Everywhere P grammar ∧ ∀ a, Everywhere P (next a)
  | _, map grammar f => P (map grammar f) ∧ Everywhere P grammar
  | _, mapWith grammar f => P (mapWith grammar f) ∧ Everywhere P grammar
  | _, modifyContext grammar f => P (modifyContext grammar f) ∧ Everywhere P grammar
  | _, zipWith left right f => P (zipWith left right f) ∧ Everywhere P left ∧ Everywhere P right
  | _, all grammars => P (all grammars) ∧ ∀ i, Everywhere P (grammars i)
  | _, any grammars => P (any grammars) ∧ ∀ i, Everywhere P (grammars i)
  | _, many grammar => P (many grammar) ∧ Everywhere P grammar
  | _, many1 grammar => P (many1 grammar) ∧ Everywhere P grammar
  | _, separatedBy grammar separator =>
    P (separatedBy grammar separator) ∧ Everywhere P grammar ∧ Everywhere P separator
  | _, opt grammar => P (opt grammar) ∧ Everywhere P grammar
  | _, label grammar message => P (label grammar message) ∧ Everywhere P grammar
  | _, withText grammar => P (withText grammar) ∧ Everywhere P grammar
  | _, succeed value => P (succeed value)
  | α, fail message => P (fail message : Grammar C R α)
  | _, when predicate message => P (when predicate message)
  | _, endOfText => P endOfText
  | _, context => P context
  | _, literal text => P (literal text)
  | _, keyword text => P (keyword text)
  | _, wordBoundary => P wordBoundary
  | _, whitespace => P whitespace
  | _, whitespaceChar => P whitespaceChar
  | _, charSpan initial following => P (charSpan initial following)
  | _, custom parser => P (custom parser)
  | _, call rule => P (call rule)

/-- What holds of all grammars holds of a grammar and all of its parts. -/
theorem everywhere_of_forall {P : {α : Type} → Grammar C R α → Prop}
    (h : ∀ {α : Type} (g : Grammar C R α), P g) {α : Type} (g : Grammar C R α) :
    g.Everywhere P := by
  induction g with
  | delay grammar ih => exact ⟨h _, ih ()⟩
  | bind grammar next ih ihnext => exact ⟨h _, ih, ihnext⟩
  | zipWith left right f ihl ihr => exact ⟨h _, ihl, ihr⟩
  | separatedBy grammar separator ihg ihs => exact ⟨h _, ihg, ihs⟩
  | all grammars ih => exact ⟨h _, ih⟩
  | any grammars ih => exact ⟨h _, ih⟩
  | map _ _ ih => exact ⟨h _, ih⟩
  | mapWith _ _ ih => exact ⟨h _, ih⟩
  | modifyContext _ _ ih => exact ⟨h _, ih⟩
  | many _ ih => exact ⟨h _, ih⟩
  | many1 _ ih => exact ⟨h _, ih⟩
  | opt _ ih => exact ⟨h _, ih⟩
  | label _ _ ih => exact ⟨h _, ih⟩
  | withText _ ih => exact ⟨h _, ih⟩
  | _ => exact h _

/-- What follows from a property of nodes holds wherever the property does. -/
theorem Everywhere.mono {P Q : {α : Type} → Grammar C R α → Prop}
    (himp : ∀ {α : Type} (g : Grammar C R α), P g → Q g) {α : Type} {g : Grammar C R α}
    (h : g.Everywhere P) : g.Everywhere Q := by
  induction g with
  | delay grammar ih => exact ⟨himp _ h.1, ih () h.2⟩
  | bind grammar next ih ihnext => exact ⟨himp _ h.1, ih h.2.1, fun a => ihnext a (h.2.2 a)⟩
  | zipWith left right f ihl ihr => exact ⟨himp _ h.1, ihl h.2.1, ihr h.2.2⟩
  | separatedBy grammar separator ihg ihs => exact ⟨himp _ h.1, ihg h.2.1, ihs h.2.2⟩
  | all grammars ih => exact ⟨himp _ h.1, fun i => ih i (h.2 i)⟩
  | any grammars ih => exact ⟨himp _ h.1, fun i => ih i (h.2 i)⟩
  | map _ _ ih => exact ⟨himp _ h.1, ih h.2⟩
  | mapWith _ _ ih => exact ⟨himp _ h.1, ih h.2⟩
  | modifyContext _ _ ih => exact ⟨himp _ h.1, ih h.2⟩
  | many _ ih => exact ⟨himp _ h.1, ih h.2⟩
  | many1 _ ih => exact ⟨himp _ h.1, ih h.2⟩
  | opt _ ih => exact ⟨himp _ h.1, ih h.2⟩
  | label _ _ ih => exact ⟨himp _ h.1, ih h.2⟩
  | withText _ ih => exact ⟨himp _ h.1, ih h.2⟩
  | _ => exact himp _ h

end Grammar

/-- A property of nodes holds everywhere in the grammars of all rules. -/
def Rules.Everywhere {C : Type} {R : Type → Type} (rules : Rules C R)
    (P : {α : Type} → Grammar C R α → Prop) : Prop :=
  ∀ {α : Type} (rule : R α), (rules.body rule).Everywhere P

namespace Contract

variable {C : Type} {R : Type → Type} {K : Contract C}

/-- What a node has to bring along for a contract: the leaves that read the text and the parsers
from outside have to keep it, and a change of context has to be allowed by it. All other nodes keep
it as soon as their parts do. -/
def Covers (K : Contract C) : {α : Type} → Grammar C R α → Prop
  | _, .when predicate message => K.Kept (Parser.when predicate message)
  | _, .endOfText => K.Kept (Parser.endOfText : Parser C Unit)
  | _, .literal text => K.Kept (Parser.literal text : Parser C String)
  | _, .keyword text => K.Kept (Parser.keyword text : Parser C String)
  | _, .wordBoundary => K.Kept (Parser.wordBoundary : Parser C Unit)
  | _, .whitespace => K.Kept (Parser.whitespace : Parser C Unit)
  | _, .whitespaceChar => K.Kept (Parser.whitespaceChar : Parser C Unit)
  | _, .charSpan initial following => K.Kept (Parser.charSpan initial following : Parser C String)
  | _, .custom parser => K.Kept parser
  | _, .modifyContext _ f => ∀ a t, K.starts t → K.leads t (t.mapContext (f · a))
  | _, _ => True

/-- One step from the parts of a grammar to the whole, for every kind of node. -/
theorem kept_toParser {rounds : Nat} {call : {α : Type} → R α → Parser C α}
    (hcall : ∀ {α : Type} (rule : R α), K.Kept (call rule)) {α : Type} {g : Grammar C R α}
    (hg : g.Everywhere K.Covers) : K.Kept (g.toParser rounds call) := by
  induction g with
  | succeed value => exact kept_succeed value
  | fail message => exact kept_fail message
  | context => exact kept_context
  | call rule => exact hcall rule
  | delay grammar ih => exact ih () hg.2
  | bind grammar next ih ihnext => exact kept_bind (ih hg.2.1) fun a => ihnext a (hg.2.2 a)
  | map grammar f ih => exact kept_map (ih hg.2) f
  | mapWith grammar f ih => exact kept_mapWith (ih hg.2) f
  | modifyContext grammar f ih => exact kept_modifyContext (ih hg.2) hg.1
  | zipWith left right f ihl ihr => exact kept_zipWith (ihl hg.2.1) (ihr hg.2.2) f
  | all grammars ih => exact kept_all fun i => ih i (hg.2 i)
  | any grammars ih =>
    apply kept_any
    intro p hp
    obtain ⟨i, rfl⟩ := List.mem_ofFn.1 hp
    exact ih i (hg.2 i)
  | many grammar ih => exact kept_many (ih hg.2) rounds
  | many1 grammar ih => exact kept_many1 (ih hg.2) rounds
  | separatedBy grammar separator ihg ihs => exact kept_separatedBy (ihg hg.2.1) (ihs hg.2.2) rounds
  | opt grammar ih => exact kept_opt (ih hg.2)
  | label grammar message ih => exact kept_label (ih hg.2) message
  | withText grammar ih => exact kept_withText (ih hg.2)
  | _ => exact hg

/-- The induction is on the depth to which rules call each other: a rule runs its own grammar with
one level less for the rules in it. -/
theorem kept_call {rules : Rules C R} (hrules : rules.Everywhere K.Covers) (rounds depth : Nat)
    {α : Type} (rule : R α) : K.Kept (rules.call rounds depth rule) := by
  induction depth generalizing α with
  | zero => exact fun _ _ => K.faults_outOfBudget
  | succ depth ih => exact kept_toParser ih (hrules rule)

/-- Every run of a grammar keeps the contracts that cover the grammar and its rules. -/
theorem kept_run {rules : Rules C R} (hrules : rules.Everywhere K.Covers) (budget : Budget)
    {α : Type} {g : Grammar C R α} (hg : g.Everywhere K.Covers) : K.Kept (rules.run budget g) :=
  kept_toParser (kept_call hrules budget.rounds budget.depth) hg

end Contract

end ContextParser
