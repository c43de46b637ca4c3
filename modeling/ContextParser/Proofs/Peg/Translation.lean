import ContextParser.Proofs.Cursor
import ContextParser.Proofs.Endings
import ContextParser.Proofs.Peg.Semantics

/-!
# Parsing expressions as grammars

Every parsing expression has a grammar of this library, which takes a nonterminal for a rule that is
looked up only when it is run. What is derived for an expression, the runs of its grammar do: from
any well-formed state before the same characters they skip the prefix that is consumed, or fail
(`realizes_of_derives`).

The proof follows the derivation. For a repetition it matters that nothing is derived where the body
succeeds on nothing: whenever a derivation goes on with another round, the round before it has moved
the cursor, so the stop of `many` after a round that stands still never comes too early.
-/

set_option autoImplicit false

namespace ContextParser

/-- The rules of a grammar made from parsing expressions. -/
inductive PegRule (N : Type) : Type → Type where
  /-- What the nonterminal stands for. -/
  | nonterminal (name : N) : PegRule N Unit

namespace Peg

variable {N C : Type}

/-- The grammar of an expression. -/
def toGrammar : Peg N → Grammar C (PegRule N) Unit
  | literal text => (Grammar.literal text).map fun _ => ()
  | charClass accepts => (Grammar.charSpan accepts fun _ => false).map fun _ => ()
  | both left right => (Grammar.both left.toGrammar right.toGrammar).map fun _ => ()
  | all parts => (Grammar.all fun i => (parts i).toGrammar).map fun _ => ()
  | or left right => Grammar.or left.toGrammar right.toGrammar
  | any alternatives => Grammar.any fun i => (alternatives i).toGrammar
  | many body => body.toGrammar.many.map fun _ => ()
  | many1 body => body.toGrammar.many1.map fun _ => ()
  | opt body => body.toGrammar.opt.map fun _ => ()
  | call name => Grammar.delay fun _ => .call (.nonterminal name)

/-- The grammar of what a nonterminal stands for. -/
def ruleGrammar (rules : N → Peg N) : {α : Type} → PegRule N α → Grammar C (PegRule N) α
  | _, .nonterminal name => (rules name).toGrammar

/-- The grammars of what all nonterminals stand for. -/
def toRules (rules : N → Peg N) : Rules C (PegRule N) where
  body rule := ruleGrammar rules rule

/-- The runs from a state do what a result says. -/
def Realizes {R : Type → Type} {α : Type} (rules : Rules C R) (g : Grammar C R α) (s : State C) :
    Result → Prop
  | .consumed front _ => rules.Reaches g s (s.skip front)
  | .failed => rules.Rejects g s

section Leaves

variable {R : Type → Type} {rules : Rules C R} {s : State C}

/-- A literal leads behind its characters. -/
theorem reaches_literal {text : String} {rest : List Char} (hs : s.WellFormed)
    (h : s.remaining = text.toList ++ rest) :
    rules.Reaches (.literal text) s (s.skip text.toList) :=
  ⟨text, { rounds := 0, depth := 0 }, fun _ _ => Parser.literal_of_append hs h⟩

/-- A literal is rejected where the text does not go on with it. -/
theorem rejects_literal {text : String} (hs : s.WellFormed) (h : ¬text.toList <+: s.remaining) :
    rules.Rejects (.literal text) s :=
  ⟨_, { rounds := 0, depth := 0 }, fun _ _ => Parser.literal_of_not_starting hs h⟩

/-- A class of characters leads behind a character of the class. -/
theorem reaches_charClass {accepts : Char → Bool} {c : Char} {rest : List Char} (hs : s.WellFormed)
    (h : s.remaining = c :: rest) (hc : accepts c = true) :
    rules.Reaches (.charSpan accepts fun _ => false) s (s.skip [c]) :=
  ⟨_, { rounds := 0, depth := 0 }, fun _ _ => Parser.charSpan_single hs h hc⟩

/-- A span is rejected where no character may start it. -/
theorem rejects_charSpan {accepts following : Char → Bool} (hs : s.WellFormed)
    (h : Parser.spanLength accepts following s.remaining = none) :
    rules.Rejects (.charSpan accepts following) s :=
  ⟨_, { rounds := 0, depth := 0 }, fun _ _ => Parser.charSpan_of_spanLength hs h⟩

end Leaves

variable {rules : N → Peg N} {e : Peg N} {cs : List Char} {result : Result}

/-- Behind a prefix that is consumed lies a well-formed state before the rest. -/
theorem Derives.behind {front rest : List Char} (h : Derives rules e cs (.consumed front rest))
    {s : State C} (hs : s.WellFormed) (hcs : s.remaining = cs) :
    (s.skip front).WellFormed ∧ (s.skip front).remaining = rest := by
  have hparts : s.remaining = front ++ rest := hcs.trans (h.eq_append rfl)
  exact ⟨State.wellFormed_skip hs hparts, State.remaining_skip hs hparts⟩

/-- A round of a repetition that others follow has moved the cursor. -/
theorem Derives.index_skip_ne {body : Peg N} {front back middle rest : List Char}
    (hbody : Derives rules body cs (.consumed front back))
    (hmany : Derives rules (.many body) back (.consumed middle rest)) (s : State C) :
    (s.skip front).index ≠ s.index := by
  have hfront : front ≠ [] := (many_step hbody hmany).front_ne_nil_of_many hbody
  rwa [ne_eq, State.index_skip_eq_iff]

/-- What is derived for an expression, the runs of its grammar do. -/
theorem realizes_of_derives (h : Derives rules e cs result) {s : State C} (hs : s.WellFormed)
    (hcs : s.remaining = cs) :
    Realizes (toRules rules) (e.toGrammar : Grammar C (PegRule N) Unit) s result := by
  induction h generalizing s with
  | literal h =>
    rw [← hcs] at h
    exact Rules.reaches_map_iff.2 (reaches_literal hs h)
  | literal_failed h =>
    rw [← hcs] at h
    exact Rules.rejects_map (rejects_literal hs h)
  | charClass h => exact Rules.reaches_map_iff.2 (reaches_charClass hs hcs h)
  | charClass_failed h =>
    refine Rules.rejects_map (rejects_charSpan hs ?_)
    rw [hcs, Parser.spanLength, if_neg (by simp [h])]
  | charClass_end =>
    refine Rules.rejects_map (rejects_charSpan hs ?_)
    rw [hcs, Parser.spanLength]
  | both hleft hright ihleft ihright =>
    obtain ⟨hbehind, hrest⟩ := hleft.behind hs hcs
    have hback := ihright hbehind hrest
    rw [Realizes, State.skip_skip] at hback
    exact Rules.reaches_map_iff.2 (Rules.reaches_zipWith (ihleft hs hcs) hback)
  | both_left_failed hleft ihleft =>
    exact Rules.rejects_map (Rules.rejects_zipWith_left (ihleft hs hcs))
  | both_right_failed hleft hright ihleft ihright =>
    obtain ⟨hbehind, hrest⟩ := hleft.behind hs hcs
    have hback := ihright hbehind hrest
    exact Rules.rejects_map (Rules.rejects_zipWith_right (ihleft hs hcs) hback)
  | all_nil => exact Rules.reaches_map_iff.2 (Rules.reaches_all_zero _ s)
  | all_cons hhead htail ihhead ihtail =>
    obtain ⟨hbehind, hrest⟩ := hhead.behind hs hcs
    have hback := ihtail hbehind hrest
    rw [Realizes, State.skip_skip] at hback
    have hfamily := Rules.reaches_map_iff.1 hback
    exact Rules.reaches_map_iff.2 (Rules.reaches_all_succ (ihhead hs hcs) hfamily)
  | all_head_failed hhead ihhead =>
    exact Rules.rejects_map (Rules.rejects_all_head (ihhead hs hcs))
  | all_tail_failed hhead htail ihhead ihtail =>
    obtain ⟨hbehind, hrest⟩ := hhead.behind hs hcs
    have hback := ihtail hbehind hrest
    have hfamily := Rules.rejects_of_map hback
    exact Rules.rejects_map (Rules.rejects_all_tail (ihhead hs hcs) hfamily)
  | or_left hleft ihleft => exact Rules.reaches_any_head (ihleft hs hcs)
  | @or_right _ _ _ result hleft hright ihleft ihright =>
    -- a choice of two is a family of two, whose tail is a family of one
    cases result with
    | consumed front rest =>
      refine Rules.reaches_any_tail (ihleft hs hcs) ?_
      exact Rules.reaches_any_head (ihright hs hcs)
    | failed =>
      refine Rules.rejects_any_tail (ihleft hs hcs) ?_
      exact Rules.rejects_any_tail (ihright hs hcs) (Rules.rejects_any_zero _ s)
  | any_nil => exact Rules.rejects_any_zero _ s
  | any_head hhead ihhead => exact Rules.reaches_any_head (ihhead hs hcs)
  | @any_tail _ _ _ result hhead htail ihhead ihtail =>
    cases result with
    | consumed front rest => exact Rules.reaches_any_tail (ihhead hs hcs) (ihtail hs hcs)
    | failed => exact Rules.rejects_any_tail (ihhead hs hcs) (ihtail hs hcs)
  | many_stop hbody ihbody =>
    exact Rules.reaches_map_iff.2 (Rules.reaches_many_of_rejects (ihbody hs hcs))
  | many_step hbody hmany ihbody ihmany =>
    obtain ⟨hbehind, hrest⟩ := hbody.behind hs hcs
    have hback := ihmany hbehind hrest
    rw [Realizes, State.skip_skip] at hback
    have hloop := Rules.reaches_map_iff.1 hback
    have hmoved := hbody.index_skip_ne hmany s
    exact Rules.reaches_map_iff.2 (Rules.reaches_many_step (ihbody hs hcs) hmoved hloop)
  | many1 hbody hmany ihbody ihmany =>
    obtain ⟨hbehind, hrest⟩ := hbody.behind hs hcs
    have hback := ihmany hbehind hrest
    rw [Realizes, State.skip_skip] at hback
    have hloop := Rules.reaches_map_iff.1 hback
    have hmoved := hbody.index_skip_ne hmany s
    exact Rules.reaches_map_iff.2 (Rules.reaches_many1 (ihbody hs hcs) hmoved hloop)
  | many1_failed hbody ihbody =>
    exact Rules.rejects_map (Rules.rejects_many1 (ihbody hs hcs))
  | opt_some hbody ihbody =>
    exact Rules.reaches_map_iff.2 (Rules.reaches_opt (ihbody hs hcs))
  | opt_none hbody ihbody =>
    exact Rules.reaches_map_iff.2 (Rules.reaches_opt_of_rejects (ihbody hs hcs))
  | @call name _ result hbody ihbody =>
    cases result with
    | consumed front rest => exact Rules.reaches_call (ihbody hs hcs)
    | failed => exact Rules.rejects_call (ihbody hs hcs)

end Peg

end ContextParser
