import ContextParser.Proofs.Contract.Grammar
import ContextParser.Proofs.Simulation.Parser

/-!
# Grammars under simulations

A grammar is run twice, from states and under budgets that a simulation relates. If everywhere in
the grammar and in its rules the nodes are ones that the simulation covers, then the two runs end
alike (`simulates_run`).
-/

set_option autoImplicit false

namespace ContextParser.Simulation

variable {C : Type} {R : Type → Type} {S : Simulation C C}

/-- What a node has to bring along for a simulation. The leaves that look at the state have to be
simulated, functions of the context must not tell related states apart, and changes of the context
have to keep them related. -/
def Covers (S : Simulation C C) : {α : Type} → Grammar C R α → Prop
  | _, .when predicate message =>
    S.Simulates (Parser.when predicate message) (Parser.when predicate message)
  | _, .endOfText => S.Simulates (Parser.endOfText : Parser C Unit) Parser.endOfText
  | _, .context => S.Simulates (Parser.context : Parser C C) Parser.context
  | _, .literal text => S.Simulates (Parser.literal text : Parser C String) (Parser.literal text)
  | _, .keyword text => S.Simulates (Parser.keyword text : Parser C String) (Parser.keyword text)
  | _, .wordBoundary => S.Simulates (Parser.wordBoundary : Parser C Unit) Parser.wordBoundary
  | _, .whitespace => S.Simulates (Parser.whitespace : Parser C Unit) Parser.whitespace
  | _, .whitespaceChar => S.Simulates (Parser.whitespaceChar : Parser C Unit) Parser.whitespaceChar
  | _, .charSpan initial following =>
    S.Simulates (Parser.charSpan initial following : Parser C String)
      (Parser.charSpan initial following)
  | _, .custom parser => S.Simulates parser parser
  | _, .mapWith _ f => ∀ a s t, S.states s t → f a s.context = f a t.context
  | _, .modifyContext _ f =>
    ∀ a s t, S.states s t → S.states (s.mapContext (f · a)) (t.mapContext (f · a))
  | _, _ => True

/-- One step from the parts of a grammar to the whole, for every kind of node. -/
theorem simulates_toParser {rounds rounds' : Nat} (hrounds : S.Paced rounds rounds')
    {call call' : {α : Type} → R α → Parser C α}
    (hcall : ∀ {α : Type} (rule : R α), S.Simulates (call rule) (call' rule)) {α : Type}
    {g : Grammar C R α} (hg : g.Everywhere S.Covers) :
    S.Simulates (g.toParser rounds call) (g.toParser rounds' call') := by
  induction g with
  | succeed value => exact simulates_succeed value
  | fail message => exact simulates_fail message
  | call rule => exact hcall rule
  | delay grammar ih => exact ih () hg.2
  | bind grammar next ih ihnext => exact simulates_bind (ih hg.2.1) fun a => ihnext a (hg.2.2 a)
  | map grammar f ih => exact simulates_map (ih hg.2) f
  | mapWith grammar f ih => exact simulates_mapWith (ih hg.2) hg.1
  | modifyContext grammar f ih => exact simulates_modifyContext (ih hg.2) hg.1
  | zipWith left right f ihl ihr => exact simulates_zipWith (ihl hg.2.1) (ihr hg.2.2) f
  | all grammars ih => exact simulates_all fun i => ih i (hg.2 i)
  | any grammars ih => exact simulates_any (forall₂_ofFn fun i => ih i (hg.2 i))
  | many grammar ih => exact simulates_many (ih hg.2) hrounds
  | many1 grammar ih => exact simulates_many1 (ih hg.2) hrounds
  | separatedBy grammar separator ihg ihs =>
    exact simulates_separatedBy (ihg hg.2.1) (ihs hg.2.2) hrounds
  | opt grammar ih => exact simulates_opt (ih hg.2)
  | label grammar message ih => exact simulates_label (ih hg.2) message
  | withText grammar ih => exact simulates_withText (ih hg.2)
  | _ => exact hg

/-- Both runs open a level for every rule that calls another, so either both have one left or the
first is out of budget and excused. -/
theorem simulates_call {rules : Rules C R} (hrules : rules.Everywhere S.Covers)
    {rounds rounds' : Nat} (hrounds : S.Paced rounds rounds') {depth depth' : Nat}
    (hdepth : S.Paced depth depth') {α : Type} (rule : R α) :
    S.Simulates (rules.call rounds depth rule) (rules.call rounds' depth' rule) := by
  induction depth generalizing α depth' with
  | zero => exact fun s t _ => agree_of_paced_zero (rules.call rounds' · rule t) hdepth rfl
  | succ depth ih =>
    obtain ⟨depth', rfl, hrest⟩ := hdepth.exists_succ
    exact simulates_toParser hrounds (ih hrest) (hrules rule)

/-- Every run of a grammar is simulated if the simulation covers the grammar and its rules. -/
theorem simulates_run {rules : Rules C R} (hrules : rules.Everywhere S.Covers) {b b' : Budget}
    (hrounds : S.Paced b.rounds b'.rounds) (hdepth : S.Paced b.depth b'.depth) {α : Type}
    {g : Grammar C R α} (hg : g.Everywhere S.Covers) :
    S.Simulates (rules.run b g) (rules.run b' g) :=
  simulates_toParser hrounds (simulates_call hrules hrounds hdepth) hg

end ContextParser.Simulation
