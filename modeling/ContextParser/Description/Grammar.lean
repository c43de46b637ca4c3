import ContextParser.Description.Basic
import ContextParser.Grammar.Rules

/-!
# The grammar of a description

`Description.toGrammar` builds the grammar that a description stands for, given the values of the
variables around it. The grammar refers to rules by a name and an argument; `Rules.ofDescriptions`
looks the name up in a table of descriptions and builds the rule afresh, with the argument as its
only variable, each time it is called.
-/

set_option autoImplicit false

namespace ContextParser

/-- Variables and their values, the innermost first. -/
abbrev Bindings : Type := List (String × Value)

/-- A reference to a described rule: its name and the value for it to work with. -/
inductive RuleRef : Type → Type where
  | named (name : String) (argument : Option Value) : RuleRef Value

namespace Step

variable {C : Type} [DynamicContext C]

/-- The state after a step, which starts from another text, goes to an index, moves forward and
replaces the context, in this order, as far as the step says so. -/
def target (step : Step) (scope : Scope) (s : State C) : Except Fault (State C) := do
  let s := match step.text with
    | some text => .start (text.eval scope).toText s.context
    | none => s
  let s ← match step.index with
    | some index => (State.start s.text s.context).advance (index.eval scope).toInt.toNat
    | none => pure s
  let s ← match step.advance with
    | some length => s.advance (length.eval scope).toInt.toNat
    | none => pure s
  match step.context with
  | some context => pure (s.withContext (DynamicContext.ofValue (context.eval scope)))
  | none => pure s

/-- The parser that a step describes. -/
def parser (step : Step) (bindings : Bindings) : Parser C Value := fun s =>
  let scope := { bindings, state := some (s.mapContext DynamicContext.toValue) }
  (Outcome.ofExcept (step.target scope s)).bind fun t =>
    if (step.succeeds.eval scope).toBool then
      .success { state := t, value := step.value.eval scope }
    else
      .failure { kind := step.kind, message := (step.message.eval scope).toText, state := t }

end Step

namespace Description

variable {C : Type} [DynamicContext C]

mutual

/-- The grammar that a description stands for. -/
def toGrammar (bindings : Bindings) : Description → Grammar C RuleRef Value
  | succeed value => .succeed (value.eval { bindings })
  | fail message => .fail (message.eval { bindings }).toText
  | when length message =>
    Grammar.map
      (.when
        (fun s =>
          (length.eval
            { bindings, state := some (s.mapContext DynamicContext.toValue) }).toLength?)
        (message.eval { bindings }).toText)
      fun _ => .unit
  | endOfText => .map .endOfText fun _ => .unit
  | context => .map .context DynamicContext.toValue
  | wordBoundary => .map .wordBoundary fun _ => .unit
  | whitespace => .map .whitespace fun _ => .unit
  | whitespaceChar => .map .whitespaceChar fun _ => .unit
  | identifier => .map .identifier .text
  | literal text => .map (.literal (text.eval { bindings }).toText) .text
  | keyword text => .map (.keyword (text.eval { bindings }).toText) .text
  | chars accepted => .map (.chars accepted.accepts) .text
  | charSpan initial following => .map (.charSpan initial.accepts following.accepts) .text
  | step single => .custom (single.parser bindings)
  | call name argument => .call (.named name (argument.map (·.eval { bindings })))
  | delay inner => .delay fun _ => toGrammar bindings inner
  | spaces inner => .spaces (toGrammar bindings inner)
  | bind inner name next =>
    .bind (toGrammar bindings inner) fun value => toGrammar ((name, value) :: bindings) next
  | map inner f =>
    .map (toGrammar bindings inner) fun value =>
      f.eval { bindings := ("x", value) :: bindings }
  | mapWith inner f =>
    .mapWith (toGrammar bindings inner) fun value context =>
      f.eval
        { bindings := ("c", DynamicContext.toValue context) :: ("x", value) :: bindings }
  | modifyContext inner f =>
    .modifyContext (toGrammar bindings inner) fun context value =>
      DynamicContext.ofValue
        (f.eval
          { bindings := ("c", DynamicContext.toValue context) :: ("x", value) :: bindings })
  | zipWith left right f =>
    .zipWith (toGrammar bindings left) (toGrammar bindings right) fun l r =>
      f.eval { bindings := ("l", l) :: ("r", r) :: bindings }
  | both left right =>
    .map (.both (toGrammar bindings left) (toGrammar bindings right)) fun (l, r) => .tuple [l, r]
  | or left right => .or (toGrammar bindings left) (toGrammar bindings right)
  | seqLeft left right => .seqLeft (toGrammar bindings left) (toGrammar bindings right)
  | seqRight left right => .seqRight (toGrammar bindings left) (toGrammar bindings right)
  | between inner left right =>
    .between (toGrammar bindings inner) (toGrammar bindings left) (toGrammar bindings right)
  | all parts =>
    .map (.all (toGrammars bindings parts).get) fun values => .tuple (List.ofFn values)
  | any alternatives => .anyOf (toGrammars bindings alternatives)
  | many inner => .map (.many (toGrammar bindings inner)) .list
  | many1 inner => .map (.many1 (toGrammar bindings inner)) .list
  | separatedBy inner separator =>
    .map (.separatedBy (toGrammar bindings inner) (toGrammar bindings separator)) .list
  | opt inner => .map (.opt (toGrammar bindings inner)) .ofOption
  | label inner message => .label (toGrammar bindings inner) (message.eval { bindings }).toText
  | withText inner =>
    .map (.withText (toGrammar bindings inner)) fun (value, text) => .tuple [value, .text text]

/-- The grammars that some descriptions stand for. -/
def toGrammars (bindings : Bindings) : List Description → List (Grammar C RuleRef Value)
  | [] => []
  | part :: parts => toGrammar bindings part :: toGrammars bindings parts

end

end Description

/-- The grammar that a reference stands for in a table of descriptions. A rule that is not in the
table always fails. -/
def RuleRef.toGrammar {C : Type} [DynamicContext C] (table : List (String × Description)) :
    {α : Type} → RuleRef α → Grammar C RuleRef α
  | _, .named name argument =>
    match table.lookup name with
    | some description =>
      description.toGrammar (argument.toList.map fun value => ("arg", value))
    | none => .fail ("No rule named " ++ name)

/-- The rules that a table of descriptions gives. -/
def Rules.ofDescriptions {C : Type} [DynamicContext C] (table : List (String × Description)) :
    Rules C RuleRef where
  body := RuleRef.toGrammar table

/-- The parser that a description stands for, next to a table of rules. -/
def Description.toParser {C : Type} [DynamicContext C] (description : Description)
    (table : List (String × Description)) (budget : Budget) : Parser C Value :=
  (Rules.ofDescriptions table).run budget (description.toGrammar [])

end ContextParser
