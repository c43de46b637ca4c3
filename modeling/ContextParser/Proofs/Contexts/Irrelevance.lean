import ContextParser.Proofs.Contract.Grammar
import ContextParser.Proofs.Simulation.Leaves

/-!
# Contexts that are not looked at

A grammar may change the context without ever looking at it. Then neither the context at the start
nor what the changes are makes a difference to where a run ends, with which value or with which
failure: the only thing that differs is the context (`run_withoutContext`). In particular the
changes may be left out, and the contexts may be of different types.

The grammar without its changes is what the two runs have in common, so each of them is simulated by
that grammar, and the relation between the two is to have the same text and the same index. The
induction is on the grammar, with the depth to which rules call each other outside of it.
-/

set_option autoImplicit false

namespace ContextParser

variable {C D E : Type} {R : Type → Type} {α : Type}

namespace State

/-- Another context leaves the text as it is. -/
@[simp] theorem text_withContext (s : State C) (context : D) :
    (s.withContext context).text = s.text := rfl

/-- Another context leaves the index as it is. -/
@[simp] theorem index_withContext (s : State C) (context : D) :
    (s.withContext context).index = s.index := rfl

/-- The cursor moves alike with another context. -/
theorem advance_withContext (s : State C) (context : D) (length : Nat) :
    (s.withContext context).advance length = (s.advance length).map (·.withContext context) := by
  rw [advance, advance, text_withContext, index_withContext]
  split
  · rfl
  · rfl

end State

/-- The same failure with another context. -/
def Failure.withContext (e : Failure C) (context : D) : Failure D :=
  { kind := e.kind, message := e.message, state := e.state.withContext context }

/-- All of an outcome but the context with which it ends. -/
def Outcome.withoutContext (o : Outcome (Failure C) (Success C α)) :
    Outcome (Failure Unit) (Success Unit α) :=
  (o.map fun r => { state := r.state.withContext (), value := r.value }).mapFailure
    fun e => e.withContext ()

namespace Grammar

/-- A node that does not look at the context. Nothing is known of predicates and of parsers from
outside. -/
def IgnoresContext : {α : Type} → Grammar C R α → Prop
  | _, context => False
  | _, mapWith _ _ => False
  | _, when _ _ => False
  | _, custom _ => False
  | _, _ => True

/-- The grammar with all changes of the context left out. The nodes that look at contexts of one
type mean nothing for those of another, so they are only here to fail. -/
def erased : {α : Type} → Grammar C R α → Grammar D R α
  | _, modifyContext grammar _ => erased grammar
  | _, context => fail "Erased"
  | _, mapWith _ _ => fail "Erased"
  | _, when _ _ => fail "Erased"
  | _, custom _ => fail "Erased"
  | _, succeed value => succeed value
  | _, fail message => fail message
  | _, endOfText => endOfText
  | _, literal text => literal text
  | _, keyword text => keyword text
  | _, wordBoundary => wordBoundary
  | _, whitespace => whitespace
  | _, whitespaceChar => whitespaceChar
  | _, charSpan initial following => charSpan initial following
  | _, call rule => call rule
  | _, delay grammar => delay fun _ => erased (grammar ())
  | _, bind grammar next => bind (erased grammar) fun a => erased (next a)
  | _, map grammar f => map (erased grammar) f
  | _, zipWith left right f => zipWith (erased left) (erased right) f
  | _, all grammars => all fun i => erased (grammars i)
  | _, any grammars => any fun i => erased (grammars i)
  | _, many grammar => many (erased grammar)
  | _, many1 grammar => many1 (erased grammar)
  | _, separatedBy grammar separator => separatedBy (erased grammar) (erased separator)
  | _, opt grammar => opt (erased grammar)
  | _, label grammar message => label (erased grammar) message
  | _, withText grammar => withText (erased grammar)

end Grammar

/-- The rules with all changes of the context left out. -/
def Rules.erased (rules : Rules C R) : Rules D R where
  body rule := (rules.body rule).erased

namespace Simulation

/-- To do the same with another context. -/
def contexts (C D : Type) : Simulation C D where
  states s t := ∃ context, t = s.withContext context
  failures e e' := ∃ context, e' = e.withContext context
  excused _ := False
  index_eq_iff := by
    rintro s _ s' _ ⟨_, rfl⟩ ⟨_, rfl⟩
    rfl
  slice?_eq := by
    rintro s _ s' _ ⟨_, rfl⟩ ⟨_, rfl⟩
    rfl
  failures_mismatch := by
    rintro s _ message ⟨context, rfl⟩
    exact ⟨context, rfl⟩
  failures_exhausted := by
    rintro s _ messages ⟨context, rfl⟩
    exact ⟨context, rfl⟩
  failures_label := by
    rintro e _ message ⟨context, rfl⟩
    exact ⟨context, rfl⟩
  message_eq := by
    rintro e _ ⟨_, rfl⟩
    rfl

/-- Outcomes that agree are the same but for the contexts. -/
theorem withoutContext_eq_of_agree {o : Outcome (Failure C) (Success C α)}
    {o' : Outcome (Failure D) (Success D α)} (h : (contexts C D).Agree o o') :
    o'.withoutContext = o.withoutContext := by
  cases h with
  | success value h =>
    obtain ⟨_, rfl⟩ := h
    rfl
  | failure h =>
    obtain ⟨_, rfl⟩ := h
    rfl
  | fault c => rfl
  | excused h => exact h.elim

/-- The text and the index are all that the parsers of text look at. -/
theorem seesAhead_contexts (C D : Type) : (contexts C D).SeesAhead where
  remaining_eq := by
    rintro s _ ⟨_, rfl⟩
    rfl
  isAtEnd_eq := by
    rintro s _ ⟨_, rfl⟩
    rfl
  simulates_when := by
    rintro predicate predicate' message hpredicate s _ ⟨context, rfl⟩
    rw [Parser.when, Parser.when, ← hpredicate s _ ⟨context, rfl⟩, State.text_withContext,
      State.index_withContext]
    cases Text.cut s.index s.text.toList with
    | error c => exact .fault c
    | ok parts =>
      -- the predicates agree on related states, so the two are cut at the same length
      simp only [Outcome.ofExcept, Outcome.bind_success]
      cases predicate s with
      | none => exact .failure ⟨context, rfl⟩
      | some length =>
        dsimp only
        split
        · rw [State.advance_withContext]
          cases s.advance length with
          | error c => exact .fault c
          | ok t => exact .success () ⟨context, rfl⟩
        · exact .fault _

/-- A word boundary is found alike in all contexts. -/
theorem contexts.simulates_wordBoundary :
    (contexts C D).Simulates Parser.wordBoundary Parser.wordBoundary := by
  apply (seesAhead_contexts C D).simulates_when
  rintro s _ ⟨_, rfl⟩
  rfl

/-- A keyword is found alike in all contexts. -/
theorem contexts.simulates_keyword (text : String) :
    (contexts C D).Simulates (Parser.keyword text) (Parser.keyword text) :=
  simulates_seqLeft ((seesAhead_contexts C D).simulates_literal text)
    contexts.simulates_wordBoundary

/-- One step from the parts of a grammar to the whole, for every kind of node. A change of the
context leads from a related state to a related state, so the other side need not change it. -/
theorem simulates_erased {rounds : Nat} {call : {α : Type} → R α → Parser C α}
    {call' : {α : Type} → R α → Parser D α}
    (hcall : ∀ {α : Type} (rule : R α), (contexts C D).Simulates (call rule) (call' rule))
    {g : Grammar C R α} (hg : g.Everywhere Grammar.IgnoresContext) :
    (contexts C D).Simulates (g.toParser rounds call) (g.erased.toParser rounds call') := by
  have hahead := seesAhead_contexts C D
  induction g with
  | context => exact False.elim hg
  | mapWith => exact hg.1.elim
  | when => exact False.elim hg
  | custom => exact False.elim hg
  | succeed value => exact simulates_succeed value
  | fail message => exact simulates_fail message
  | endOfText => exact hahead.simulates_endOfText
  | literal text => exact hahead.simulates_literal text
  | keyword text => exact contexts.simulates_keyword text
  | wordBoundary => exact contexts.simulates_wordBoundary
  | whitespace => exact hahead.simulates_whitespace
  | whitespaceChar => exact hahead.simulates_whitespaceChar
  | charSpan initial following => exact hahead.simulates_charSpan initial following
  | call rule => exact hcall rule
  | delay grammar ih => exact ih () hg.2
  | bind grammar next ih ihnext => exact simulates_bind (ih hg.2.1) fun a => ihnext a (hg.2.2 a)
  | map grammar f ih => exact simulates_map (ih hg.2) f
  | modifyContext grammar f ih =>
    apply simulates_of_modifyContext (ih hg.2)
    rintro a s _ ⟨context, rfl⟩
    exact ⟨context, rfl⟩
  | zipWith left right f ihl ihr => exact simulates_zipWith (ihl hg.2.1) (ihr hg.2.2) f
  | all grammars ih => exact simulates_all fun i => ih i (hg.2 i)
  | any grammars ih => exact simulates_any (forall₂_ofFn fun i => ih i (hg.2 i))
  | many grammar ih => exact simulates_many (ih hg.2) (.inl rfl)
  | many1 grammar ih => exact simulates_many1 (ih hg.2) (.inl rfl)
  | separatedBy grammar separator ihg ihs =>
    exact simulates_separatedBy (ihg hg.2.1) (ihs hg.2.2) (.inl rfl)
  | opt grammar ih => exact simulates_opt (ih hg.2)
  | label grammar message ih => exact simulates_label (ih hg.2) message
  | withText grammar ih => exact simulates_withText (ih hg.2)

/-- The calls of rules do the same without the changes, to any depth. -/
theorem simulates_call_erased {rules : Rules C R}
    (hrules : rules.Everywhere Grammar.IgnoresContext) (rounds depth : Nat) (rule : R α) :
    (contexts C D).Simulates (rules.call rounds depth rule)
      (rules.erased.call rounds depth rule) := by
  induction depth generalizing α with
  | zero => exact fun _ _ _ => .fault .outOfBudget
  | succ depth ih => exact simulates_erased ih (hrules rule)

/-- A run of a grammar and a run of what is left of it without the changes simulate each other. -/
theorem simulates_run_erased {rules : Rules C R}
    (hrules : rules.Everywhere Grammar.IgnoresContext) {g : Grammar C R α}
    (hg : g.Everywhere Grammar.IgnoresContext) (budget : Budget) :
    (contexts C D).Simulates (rules.run budget g) (rules.erased.run budget g.erased) :=
  simulates_erased (simulates_call_erased hrules budget.rounds budget.depth) hg

end Simulation

/-- A run does the same without the changes of the context, from any context of any type. -/
theorem run_erased {rules : Rules C R} (hrules : rules.Everywhere Grammar.IgnoresContext)
    {g : Grammar C R α} (hg : g.Everywhere Grammar.IgnoresContext) (budget : Budget) (s : State C)
    (context : D) :
    (rules.run budget g s).withoutContext =
      (rules.erased.run budget g.erased (s.withContext context)).withoutContext := by
  have hagree := Simulation.simulates_run_erased hrules hg budget s _ ⟨context, rfl⟩
  exact (Simulation.withoutContext_eq_of_agree hagree).symm

/-- Two grammars that do not look at the context and differ only in how they change it have the same
outcomes, from states with the same text and the same index: the same value, text and index in
success, and the same kind, message, text and index in failure. So has the grammar without any
changes of the context, whatever the type of the contexts. -/
theorem run_withoutContext {rules : Rules C R} {rules' : Rules D R}
    (hrules : rules.Everywhere Grammar.IgnoresContext)
    (hrules' : rules'.Everywhere Grammar.IgnoresContext)
    (hbodies : ∀ {β : Type} (rule : R β),
      ((rules.body rule).erased : Grammar Unit R β) = (rules'.body rule).erased)
    {g : Grammar C R α} {g' : Grammar D R α} (hg : g.Everywhere Grammar.IgnoresContext)
    (hg' : g'.Everywhere Grammar.IgnoresContext) (hsame : (g.erased : Grammar Unit R α) = g'.erased)
    (budget : Budget) {s : State C} {t : State D} (htext : s.text = t.text)
    (hindex : s.index = t.index) (context : E) :
    (rules.run budget g s).withoutContext = (rules'.run budget g' t).withoutContext ∧
      (rules.run budget g s).withoutContext =
        (rules.erased.run budget g.erased (s.withContext context)).withoutContext := by
  have hstates : s.withContext () = t.withContext () := by
    rw [State.withContext, State.withContext, htext, hindex]
  have herased : (rules.erased : Rules Unit R) = rules'.erased := by
    unfold Rules.erased
    congr 1
    funext β rule
    exact hbodies rule
  refine ⟨?_, run_erased hrules hg budget s context⟩
  rw [run_erased hrules hg budget s (), run_erased hrules' hg' budget t (), hstates, herased, hsame]

/-- The name of one rule. -/
inductive WordRule : Type → Type where
  | words : WordRule (List String)

/-- A rule for words with whitespace between them, which makes a note of each word in the
context. -/
def notedWords (note : C → String → C) : Rules C WordRule where
  body
    | .words =>
      .bind (.modifyContext (.spaces (.chars (· != ' '))) note) fun word =>
        .map (.opt (.call .words)) fun words => word :: words.getD []

/-- However the words are noted, nobody looks at the notes. -/
theorem ignoresContext_notedWords (note : C → String → C) :
    (notedWords note).Everywhere Grammar.IgnoresContext := by
  rintro _ ⟨⟩
  exact ⟨trivial, ⟨trivial, trivial, trivial, trivial, trivial⟩,
    fun _ => ⟨trivial, trivial, trivial⟩⟩

/-- The words are noted by counting them. -/
def countedWords : Rules Nat WordRule :=
  notedWords fun count _ => count + 1

/-- The words are noted by keeping them, the last one first. -/
def listedWords : Rules (List String) WordRule :=
  notedWords fun words word => word :: words

/-- Two words are read, as they are where words are counted, and also without any notes. -/
theorem run_withoutContext_listedWords :
    (listedWords.run { rounds := 0, depth := 3 } (.call .words)
        (.start "é b1" [])).withoutContext =
      .success { state := { text := "é b1", index := 5, context := () }, value := ["é", "b1"] } ∧
    (listedWords.run { rounds := 0, depth := 3 } (.call .words)
        (.start "é b1" [])).withoutContext =
      ((listedWords.erased : Rules Bool WordRule).run { rounds := 0, depth := 3 } (.call .words)
        (.start "é b1" true)).withoutContext := by
  have hbodies : ∀ {β : Type} (rule : WordRule β),
      ((listedWords.body rule).erased : Grammar Unit WordRule β) =
        (countedWords.body rule).erased := by
    rintro _ ⟨⟩
    rfl
  have hlisted : (.call .words : Grammar (List String) WordRule _).Everywhere
      Grammar.IgnoresContext := trivial
  have hcounted : (.call .words : Grammar Nat WordRule _).Everywhere Grammar.IgnoresContext :=
    trivial
  obtain ⟨hsame, herased⟩ := run_withoutContext (ignoresContext_notedWords _)
    (ignoresContext_notedWords _) hbodies hlisted hcounted rfl { rounds := 0, depth := 3 }
    (s := .start "é b1" []) (t := .start "é b1" 0) rfl rfl true
  have hrun : (countedWords.run { rounds := 0, depth := 3 } (.call .words)
        (.start "é b1" 0)).withoutContext =
      .success { state := { text := "é b1", index := 5, context := () },
                 value := ["é", "b1"] } := by
    decide +kernel
  exact ⟨hsame.trans hrun, herased⟩

end ContextParser
