import ContextParser.Grammar.Basic
import ContextParser.Parser.Repeat

/-!
# Running grammars

A grammar runs as the parser that the combinators of the same names make of it. Two budgets bound a
run: the rounds that each of its loops may take, and the depth to which rules may call each other. A
run that stays within its budgets does not depend on them, and one that does not ends in a fault.
-/

set_option autoImplicit false

namespace ContextParser

namespace Grammar

variable {C : Type} {R : Type → Type}

/-- The parser that a grammar describes, where `rounds` bounds every loop and `call` tells how rules
are run. -/
def toParser (rounds : Nat) (call : {α : Type} → R α → Parser C α) :
    {α : Type} → Grammar C R α → Parser C α
  | _, succeed value => Parser.succeed value
  | _, fail message => Parser.fail message
  | _, when predicate message => Parser.when predicate message
  | _, endOfText => Parser.endOfText
  | _, context => Parser.context
  | _, literal text => Parser.literal text
  | _, keyword text => Parser.keyword text
  | _, wordBoundary => Parser.wordBoundary
  | _, whitespace => Parser.whitespace
  | _, whitespaceChar => Parser.whitespaceChar
  | _, charSpan initial following => Parser.charSpan initial following
  | _, custom parser => parser
  | _, .call rule => fun s => call rule s
  | _, delay grammar => toParser rounds call (grammar ())
  | _, bind grammar next =>
    Parser.bind (toParser rounds call grammar) fun a => toParser rounds call (next a)
  | _, map grammar f => Parser.map (toParser rounds call grammar) f
  | _, mapWith grammar f => Parser.mapWith (toParser rounds call grammar) f
  | _, modifyContext grammar f => Parser.modifyContext (toParser rounds call grammar) f
  | _, zipWith left right f =>
    Parser.zipWith (toParser rounds call left) (toParser rounds call right) f
  | _, all grammars => Parser.all fun i => toParser rounds call (grammars i)
  | _, any grammars => Parser.any (List.ofFn fun i => toParser rounds call (grammars i))
  | _, many grammar => Parser.many (toParser rounds call grammar) rounds
  | _, many1 grammar => Parser.many1 (toParser rounds call grammar) rounds
  | _, separatedBy grammar separator =>
    Parser.separatedBy (toParser rounds call grammar) (toParser rounds call separator) rounds
  | _, opt grammar => Parser.opt (toParser rounds call grammar)
  | _, label grammar message => Parser.label (toParser rounds call grammar) message
  | _, withText grammar => Parser.withText (toParser rounds call grammar)

end Grammar

/-- A grammar for every rule. -/
structure Rules (C : Type) (R : Type → Type) where
  /-- What a rule stands for. -/
  body : {α : Type} → R α → Grammar C R α

/-- How long a run may go on. -/
structure Budget where
  /-- The number of rounds that each loop may take. -/
  rounds : Nat
  /-- The number of rules that may be open at the same time. -/
  depth : Nat

namespace Rules

variable {C : Type} {R : Type → Type}

/-- Run a rule with at most `depth` rules open at the same time. -/
def call (rules : Rules C R) (rounds : Nat) : Nat → {α : Type} → R α → Parser C α
  | 0, _, _ => fun _ => .fault .outOfBudget
  | depth + 1, _, rule => fun s => (rules.body rule).toParser rounds (rules.call rounds depth) s

/-- Run a grammar that refers to rules. -/
def run (rules : Rules C R) (budget : Budget) {α : Type} (grammar : Grammar C R α) : Parser C α :=
  grammar.toParser budget.rounds (rules.call budget.rounds budget.depth)

end Rules

end ContextParser
