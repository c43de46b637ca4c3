import Mathlib.Data.Fintype.Card
import ContextParser.Proofs.Attempts
import ContextParser.Proofs.Endings
import ContextParser.Proofs.OrderedChoice

/-!
# Recursion that ends

Rules may refer to each other as they like, and still every parse ends, provided that no rule comes
back to itself without having moved the cursor. This is asked for by a ranking of the rules: a
reference that is tried where the body around it was started goes to a rule of smaller rank. The
cursor never goes back, so along a chain of open rules either it has moved or the rank has become
smaller. With finitely many rules, this bounds the number of rules that are open inside each other
(`calls_end`).

The proof follows the budget. A run that is out of budget has been stopped by one of its parts, and
the loops of a grammar have rounds enough; so in the end it is a reference to a rule that is out of
budget, and the body of that rule has been opened with one level less.
-/

set_option autoImplicit false

namespace ContextParser

open Relation (ReflTransGen)

variable {C : Type} {R : Type → Type} {α β : Type}

/-- A node that does not separate items by nothing: where a separator and an item after it succeed,
they have moved the cursor. -/
def Grammar.SeparatesByMoving (rules : Rules C R) : {α : Type} → Grammar C R α → Prop
  | _, .separatedBy grammar separator =>
    ∀ s t : State C, s.WellFormed → rules.Reaches (.seqRight separator grammar) s t →
      t.index ≠ s.index
  | _, _ => True

/-- A node of the library asks for nothing that could go back. -/
theorem Grammar.isForward_of_isLibrary (g : Grammar C R α) (hg : g.IsLibrary) : g.IsForward := by
  cases g with
  | custom => exact hg.elim
  | _ => exact trivial

/-- Rules that are built from the library alone never go back. -/
theorem Rules.isForward_of_isLibrary {rules : Rules C R}
    (hrules : rules.Everywhere Grammar.IsLibrary) : rules.Everywhere Grammar.IsForward :=
  fun rule => (hrules rule).mono Grammar.isForward_of_isLibrary

/-- A rule, and the state from which its body is started. -/
structure Opening (C : Type) (R : Type → Type) where
  rule : Σ α : Type, R α
  state : State C

namespace Rules

/-- The body of the first rule is open when the second rule is opened: there is a reference to the
second in it, which is tried. -/
def Nests (rules : Rules C R) (outer inner : Opening C R) : Prop :=
  rules.Enters ⟨rules.body outer.rule.2, outer.state⟩ ⟨.call inner.rule.2, inner.state⟩

/-- A ranking of the rules under which none of them comes back to itself without having moved the
cursor: a rule that is opened while the cursor is where the body around it was started has a smaller
rank than the rule around it. -/
def RankedBy (rules : Rules C R) (rank : (Σ α : Type, R α) → Nat) : Prop :=
  ∀ outer inner : Opening C R, outer.state.WellFormed → rules.Nests outer inner →
    inner.state.index = outer.state.index → rank inner.rule < rank outer.rule

variable {rules : Rules C R} {b : Budget}

/-! ## Where the budget is used up -/

/-- On the way of an attempt, a reference to a rule is tried and is out of budget. -/
def CallsOutOfBudget (rules : Rules C R) (b : Budget) (attempt : Attempt C R) : Prop :=
  ∃ (β : Type) (rule : R β) (t : State C),
    rules.Enters attempt ⟨.call rule, t⟩ ∧ rules.run b (.call rule) t = .fault .outOfBudget

/-- A reference that is out of budget inside a part is so inside the attempt. -/
theorem CallsOutOfBudget.of_starts {attempt part : Attempt C R}
    (hstarts : rules.Starts attempt part) (h : rules.CallsOutOfBudget b part) :
    rules.CallsOutOfBudget b attempt := by
  obtain ⟨β, rule, t, henters, hrun⟩ := h
  exact ⟨β, rule, t, .head hstarts henters, hrun⟩

/-- A round that moves the cursor within some budget moves it within all that suffice. -/
theorem advances_of_moves {g : Grammar C R α} : (rules.run b g).Moves ≤ rules.Advances g := by
  rintro s t ⟨r, hrun, rfl, hmoved⟩
  exact ⟨Reaches.of_run b hrun, hmoved⟩

/-- The parts of an attempt are started from well-formed states, with no more characters left. -/
theorem Starts.ready (hrules : rules.Everywhere Grammar.IsLibrary) {attempt part : Attempt C R}
    (hstarts : rules.Starts attempt part) (h : attempt.grammar.Everywhere Grammar.IsLibrary)
    (hs : attempt.state.WellFormed) (hrounds : attempt.state.remaining.length < b.rounds) :
    part.state.WellFormed ∧ part.state.remaining.length < b.rounds := by
  have hahead := hstarts.ahead (isForward_of_isLibrary hrules)
    (h.mono Grammar.isForward_of_isLibrary) hs
  have hle := hahead.length_remaining_le hs
  exact ⟨hahead.wellFormed, by omega⟩

/-- A grammar of the library is out of budget only for the sake of a rule that it refers to, if its
loops have more rounds than there are characters left. -/
theorem callsOutOfBudget_of_run (hrules : rules.Everywhere Grammar.IsLibrary)
    {g : Grammar C R α} (hg : g.Everywhere Grammar.IsLibrary)
    (hsep : g.Everywhere (Grammar.SeparatesByMoving rules)) {s : State C} (hs : s.WellFormed)
    (hrounds : s.remaining.length < b.rounds) (h : rules.run b g s = .fault .outOfBudget) :
    rules.CallsOutOfBudget b ⟨g, s⟩ := by
  have hmoves : ∀ {β : Type} {g : Grammar C R β}, g.Everywhere Grammar.IsLibrary →
      (rules.run b g).MovesForward := fun hg =>
    movesForward_run (isForward_of_isLibrary hrules) (hg.mono Grammar.isForward_of_isLibrary) b
  induction g generalizing s with
  | succeed value => cases show Outcome.success _ = Outcome.fault _ from h
  | context => cases show Outcome.success _ = Outcome.fault _ from h
  | fail message => cases show Outcome.failure _ = Outcome.fault _ from h
  | when => exact hg.elim
  | custom => exact hg.elim
  | endOfText => exact absurd h (Parser.isPlain_endOfText.ne_outOfBudget s)
  | literal text => exact absurd h ((Parser.isPlain_literal text).ne_outOfBudget s)
  | keyword text => exact absurd h ((Parser.isPlain_keyword text).ne_outOfBudget s)
  | wordBoundary => exact absurd h (Parser.isPlain_wordBoundary.ne_outOfBudget s)
  | whitespace => exact absurd h (Parser.isPlain_whitespace.ne_outOfBudget s)
  | whitespaceChar => exact absurd h (Parser.isPlain_whitespaceChar.ne_outOfBudget s)
  | charSpan initial following =>
    exact absurd h ((Parser.isPlain_charSpan initial following).ne_outOfBudget s)
  | call rule => exact ⟨_, rule, s, .refl, h⟩
  | delay grammar ih => exact (ih () hg.2 hsep.2 hs hrounds h).of_starts rfl
  | bind grammar next ih ihnext =>
    rcases Outcome.bind_eq_fault_iff.1 h with h | ⟨r, hr, h⟩
    · exact (ih hg.2.1 hsep.2.1 hs hrounds h).of_starts (.inl rfl)
    · have hstarts : rules.Starts ⟨.bind grammar next, s⟩ ⟨next r.value, r.state⟩ :=
        .inr ⟨r, EndsIn.of_run b hr (by simp), rfl⟩
      obtain ⟨ht, hrounds⟩ := hstarts.ready hrules hg hs hrounds
      exact (ihnext r.value (hg.2.2 _) (hsep.2.2 _) ht hrounds h).of_starts hstarts
  | map grammar f ih =>
    exact (ih hg.2 hsep.2 hs hrounds (Outcome.map_eq_fault_iff.1 h)).of_starts rfl
  | mapWith grammar f ih =>
    exact (ih hg.2 hsep.2 hs hrounds (Outcome.map_eq_fault_iff.1 h)).of_starts rfl
  | modifyContext grammar f ih =>
    exact (ih hg.2 hsep.2 hs hrounds (Outcome.map_eq_fault_iff.1 h)).of_starts rfl
  | withText grammar ih =>
    exact (ih hg.2 hsep.2 hs hrounds (Outcome.map_eq_fault_iff.1 h)).of_starts rfl
  | zipWith left right f ihl ihr =>
    rw [run_zipWith] at h
    rcases Outcome.bind_eq_fault_iff.1 h with h | ⟨r, hr, h⟩
    · exact (ihl hg.2.1 hsep.2.1 hs hrounds h).of_starts (.inl rfl)
    · have hstarts : rules.Starts ⟨.zipWith left right f, s⟩ ⟨right, r.state⟩ :=
        .inr ⟨r.state, Reaches.of_run b hr, rfl⟩
      obtain ⟨ht, hrounds⟩ := hstarts.ready hrules hg hs hrounds
      have hright := Outcome.map_eq_fault_iff.1 h
      exact (ihr hg.2.2 hsep.2.2 ht hrounds hright).of_starts hstarts
  | all grammars ih =>
    obtain ⟨i, t, harrives, hi⟩ := Parser.all_obstacle?_iff.1 (Outcome.eq_fault_iff.1 h)
    have hstarts : rules.Starts ⟨.all grammars, s⟩ ⟨grammars i, t⟩ := ⟨b, i, t, harrives, rfl⟩
    obtain ⟨ht, hrounds⟩ := hstarts.ready hrules hg hs hrounds
    have hmember := Outcome.eq_fault_iff.2 hi
    exact (ih i (hg.2 i) (hsep.2 i) ht hrounds hmember).of_starts hstarts
  | any grammars ih =>
    obtain ⟨i, hbefore, hi⟩ := Parser.any_ofFn_eq_fault h
    have hrejects : ∀ j, j < i → rules.Rejects (grammars j) s := by
      intro j hj
      obtain ⟨e, he⟩ := hbefore j hj
      exact Rejects.of_run b he
    exact (ih i (hg.2 i) (hsep.2 i) hs hrounds hi).of_starts ⟨i, hrejects, rfl⟩
  | many grammar ih =>
    obtain ⟨t, hrest, hround⟩ := Parser.many_eq_fault (hmoves hg.2).goesAhead hs hrounds h
    have hstarts : rules.Starts ⟨.many grammar, s⟩ ⟨grammar, t⟩ :=
      ⟨t, ReflTransGen.mono advances_of_moves _ _ hrest, rfl⟩
    obtain ⟨ht, hrounds⟩ := hstarts.ready hrules hg hs hrounds
    exact (ih hg.2 hsep.2 ht hrounds hround).of_starts hstarts
  | many1 grammar ih =>
    have hmany := Parser.many1_eq_fault_iff.1 h
    obtain ⟨t, hrest, hround⟩ := Parser.many_eq_fault (hmoves hg.2).goesAhead hs hrounds hmany
    have hstarts : rules.Starts ⟨.many1 grammar, s⟩ ⟨grammar, t⟩ :=
      ⟨t, ReflTransGen.mono advances_of_moves _ _ hrest, rfl⟩
    obtain ⟨ht, hrounds⟩ := hstarts.ready hrules hg hs hrounds
    exact (ih hg.2 hsep.2 ht hrounds hround).of_starts hstarts
  | separatedBy grammar separator ihg ihs =>
    have hround : (Grammar.seqRight separator grammar).Everywhere Grammar.IsLibrary :=
      ⟨trivial, trivial, hg.2.2, hg.2.1⟩
    have hloop : rules.run b (.separatedBy grammar separator) s =
        Parser.separatedBy (rules.run b grammar) (rules.run b separator) b.rounds s := rfl
    rw [hloop, Parser.separatedBy_eq_turn] at h
    rcases Parser.turn_eq_fault_iff.1 h with h | ⟨r, hr, h⟩
    · exact (ihg hg.2.1 hsep.2.1 hs hrounds h).of_starts (.inl rfl)
    · have hahead := (hmoves hg.2.1).ahead hs hr
      have hle := hahead.length_remaining_le hs
      obtain ⟨u, hrest, hu⟩ := Parser.separatedTail_eq_fault (hmoves hround).goesAhead
        (fun ht hrun => hsep.1 _ _ ht (Reaches.of_run b hrun)) hahead.wellFormed (by omega) h
      have hchain : ReflTransGen (rules.Reaches (.seqRight separator grammar)) r.state u :=
        ReflTransGen.mono (fun _ _ hmove => (advances_of_moves _ _ hmove).1) _ _ hrest
      -- a round is stopped at the separator, or at the item that is tried behind it
      rcases Parser.seqRight_eq_fault_iff.1 hu with hu | ⟨r', hr', hu⟩
      · have hstarts : rules.Starts ⟨.separatedBy grammar separator, s⟩ ⟨separator, u⟩ :=
          .inr ⟨r.state, u, Reaches.of_run b hr, hchain, .inl rfl⟩
        obtain ⟨ht, hrounds⟩ := hstarts.ready hrules hg hs hrounds
        exact (ihs hg.2.2 hsep.2.2 ht hrounds hu).of_starts hstarts
      · have hstarts : rules.Starts ⟨.separatedBy grammar separator, s⟩ ⟨grammar, r'.state⟩ :=
          .inr ⟨r.state, u, Reaches.of_run b hr, hchain, .inr ⟨_, Reaches.of_run b hr', rfl⟩⟩
        obtain ⟨ht, hrounds⟩ := hstarts.ready hrules hg hs hrounds
        exact (ihg hg.2.1 hsep.2.1 ht hrounds hu).of_starts hstarts
  | opt grammar ih =>
    exact (ih hg.2 hsep.2 hs hrounds (Parser.opt_eq_fault_iff.1 h)).of_starts rfl
  | label grammar message ih =>
    exact (ih hg.2 hsep.2 hs hrounds (Outcome.mapFailure_eq_fault_iff.1 h)).of_starts rfl

/-! ## How deep rules may be nested -/

/-- The number of rules whose rank is smaller than that of a rule. -/
def position [Fintype (Σ α : Type, R α)] (rank : (Σ α : Type, R α) → Nat)
    (rule : Σ α : Type, R α) : Nat :=
  (Finset.univ.filter fun other => rank other < rank rule).card

section Position

variable [Fintype (Σ α : Type, R α)] {rank : (Σ α : Type, R α) → Nat}
  {rule other : Σ α : Type, R α}

/-- There are more rules than rules of smaller rank. -/
theorem position_lt_card : position rank rule < Fintype.card (Σ α : Type, R α) := by
  apply Finset.card_lt_univ_of_notMem (x := rule)
  simp

/-- A rule of smaller rank has fewer rules below it. -/
theorem position_lt_position (h : rank other < rank rule) :
    position rank other < position rank rule := by
  have hsubset : (Finset.univ.filter fun third => rank third < rank other) ⊆
      Finset.univ.filter fun third => rank third < rank rule :=
    Finset.monotone_filter_right Finset.univ fun third _ hthird => Nat.lt_trans hthird h
  apply Finset.card_lt_card
  refine (Finset.ssubset_iff_of_subset hsubset).2 ⟨other, ?_, ?_⟩
  · simpa using h
  · simp

end Position

/-- A rule inside another one is opened where that one has been opened, or further on. -/
theorem Nests.ahead (hrules : rules.Everywhere Grammar.IsLibrary) {outer inner : Opening C R}
    (h : rules.Nests outer inner) (hs : outer.state.WellFormed) :
    outer.state.Ahead inner.state := by
  have hforward : rules.Everywhere Grammar.IsForward := isForward_of_isLibrary hrules
  exact (Enters.ahead hforward h (hforward outer.rule.2) hs).1

section Nesting

variable [Fintype (Σ α : Type, R α)] {rank : (Σ α : Type, R α) → Nat}
  (hrules : rules.Everywhere Grammar.IsLibrary) (hrank : rules.RankedBy rank)

/-- What is left for rules inside an opened one: for each byte that is left one level per rule, and
for the place where the rule has been opened one level for each rule of smaller rank. -/
def levelsInside (rank : (Σ α : Type, R α) → Nat) (opening : Opening C R) : Nat :=
  Fintype.card (Σ α : Type, R α) *
      (Text.byteLength opening.state.text.toList - opening.state.index) +
    position rank opening.rule

/-- With a level for the opened rule itself, there is one for every rule at each byte that is left
and at the end of the text. -/
theorem levelsInside_lt_card_mul (rank : (Σ α : Type, R α) → Nat) (opening : Opening C R) :
    levelsInside rank opening < Fintype.card (Σ α : Type, R α) *
      (Text.byteLength opening.state.text.toList - opening.state.index + 1) := by
  have hposition : position rank opening.rule < Fintype.card (Σ α : Type, R α) := position_lt_card
  rw [levelsInside, Nat.mul_succ]
  omega

include hrules hrank

/-- A rule inside another one is opened further on, or at the same place with a smaller rank. -/
theorem levelsInside_lt {outer inner : Opening C R} (hs : outer.state.WellFormed)
    (hnests : rules.Nests outer inner) : levelsInside rank inner < levelsInside rank outer := by
  have hahead := hnests.ahead hrules hs
  have hinner : position rank inner.rule < Fintype.card (Σ α : Type, R α) := position_lt_card
  rw [levelsInside, levelsInside, hahead.text_eq]
  -- where the cursor has moved, a byte less is left, and with it one level for every rule
  by_cases hstays : inner.state.index = outer.state.index
  · have hposition := position_lt_position (hrank outer inner hs hnests hstays)
    rw [hstays]
    omega
  · have hle := hahead.index_le
    have hend := hahead.index_le_byteLength
    have hfewer : Text.byteLength outer.state.text.toList - inner.state.index + 1 ≤
        Text.byteLength outer.state.text.toList - outer.state.index := by omega
    have hlevels := Nat.mul_le_mul_left (Fintype.card (Σ α : Type, R α)) hfewer
    rw [Nat.mul_succ] at hlevels
    omega

/-- The induction is along the chain. Each of its rules leaves fewer levels to those inside it. -/
theorem length_le_of_isChain {opening : Opening C R} {chain : List (Opening C R)}
    (hs : opening.state.WellFormed) (hchain : (opening :: chain).IsChain rules.Nests) :
    chain.length ≤ levelsInside rank opening := by
  induction chain generalizing opening with
  | nil => exact Nat.zero_le _
  | cons inner chain ih =>
    obtain ⟨hnests, hrest⟩ := List.isChain_cons_cons.1 hchain
    have hless := levelsInside_lt hrules hrank hs hnests
    have hlength := ih (hnests.ahead hrules hs).wellFormed hrest
    rw [List.length_cons]
    omega

/-- The induction is on the depth. A rule that is out of budget has opened a body in which a
reference is out of budget with one level less, but less is enough for that reference. -/
theorem call_ne_outOfBudget (hsep : rules.Everywhere (Grammar.SeparatesByMoving rules))
    {rounds depth : Nat} {α : Type} (rule : R α) {s : State C} (hs : s.WellFormed)
    (hrounds : s.remaining.length < rounds) (hdepth : levelsInside rank ⟨⟨α, rule⟩, s⟩ < depth) :
    rules.run { rounds, depth } (.call rule) s ≠ .fault .outOfBudget := by
  induction depth generalizing α s with
  | zero => omega
  | succ depth ih =>
    intro h
    rw [run_call] at h
    obtain ⟨β, other, t, henters, hcall⟩ :=
      callsOutOfBudget_of_run hrules (hrules rule) (hsep rule) hs hrounds h
    have hnests : rules.Nests ⟨⟨α, rule⟩, s⟩ ⟨⟨β, other⟩, t⟩ := henters
    have hahead : s.Ahead t := hnests.ahead hrules hs
    have hle := hahead.length_remaining_le hs
    have hless := levelsInside_lt hrules hrank hs hnests
    exact ih other hahead.wellFormed (by omega) (by omega) hcall

end Nesting

/-- A literal has no parts to be tried. -/
theorem eq_of_enters_literal {text : String} {s : State C} {attempt : Attempt C R}
    (h : rules.Enters ⟨.literal text, s⟩ attempt) : attempt = ⟨.literal text, s⟩ := by
  rcases h.cases_head with hsame | ⟨part, hstarts, -⟩
  · exact hsame.symm
  · exact hstarts.elim

/-- A literal moves the cursor ahead by its own length. -/
theorem ahead_of_reaches_literal {text : String} {s t : State C} (hs : s.WellFormed)
    (h : rules.Reaches (.literal text) s t) :
    s.Ahead t ∧ t.index = s.index + Text.byteLength text.toList := by
  obtain ⟨value, b, h⟩ := h
  have hrun : Parser.literal text s = .success { state := t, value } := h b b.le_refl
  by_cases hstarts : text.toList <+: s.remaining
  · obtain ⟨back, hback⟩ := hstarts
    rw [Parser.literal_of_append hs hback.symm] at hrun
    cases hrun
    exact ⟨⟨rfl, State.wellFormed_skip hs hback.symm, Nat.le_add_right _ _⟩, rfl⟩
  · simp [Parser.literal_of_not_starting hs hstarts] at hrun

end Rules

/-- If finitely many rules are built from the library alone, separate items by moving only, and are
ranked so that no rule comes back to itself on the spot, then every parse of a rule ends. It has one
outcome, which is no fault, and every budget yields it that has more rounds than there are
characters left, and as many levels as there are rules for each byte that is left and for the end of
the text. No more rules than that are ever open inside each other. -/
theorem calls_end [Fintype (Σ α : Type, R α)] {rules : Rules C R}
    (hrules : rules.Everywhere Grammar.IsLibrary)
    (hsep : rules.Everywhere (Grammar.SeparatesByMoving rules))
    {rank : (Σ α : Type, R α) → Nat} (hrank : rules.RankedBy rank) {α : Type} (rule : R α)
    (s : State C) (hs : s.WellFormed) :
    (∃ o, (∀ c, o ≠ .fault c) ∧ ∀ budget : Budget, s.remaining.length < budget.rounds →
      Fintype.card (Σ α : Type, R α) * (Text.byteLength s.text.toList - s.index + 1) ≤
        budget.depth →
      rules.run budget (.call rule) s = o) ∧
    ∀ chain : List (Opening C R), (⟨⟨α, rule⟩, s⟩ :: chain).IsChain rules.Nests →
      chain.length + 1 ≤
        Fintype.card (Σ α : Type, R α) * (Text.byteLength s.text.toList - s.index + 1) := by
  have hlevels := Rules.levelsInside_lt_card_mul rank (⟨⟨α, rule⟩, s⟩ : Opening C R)
  let least : Budget :=
    { rounds := s.remaining.length + 1,
      depth := Fintype.card (Σ α : Type, R α) * (Text.byteLength s.text.toList - s.index + 1) }
  have hleast : rules.run least (.call rule) s ≠ .fault .outOfBudget :=
    Rules.call_ne_outOfBudget hrules hrank hsep rule hs (Nat.lt_succ_self _) hlevels
  obtain ⟨hlibrary, -⟩ := library_faults_only_outOfBudget hrules (g := .call rule) trivial least
  refine ⟨⟨rules.run least (.call rule) s, fun c hc => ?_, fun budget hrounds hdepth => ?_⟩,
    fun chain hchain => ?_⟩
  · obtain rfl := (hlibrary s hs).1 c hc
    exact hleast hc
  · have hle : least ≤ budget := ⟨hrounds, hdepth⟩
    exact Rules.run_mono hle rfl hleast
  · have hlength := Rules.length_le_of_isChain hrules hrank hs hchain
    exact Nat.lt_of_le_of_lt hlength hlevels

/-- The names of two rules that refer to each other. -/
inductive NestRule : Type → Type where
  | item : NestRule Nat
  | list : NestRule Nat

/-- The two rules, by what one can be told from the other. -/
def nestRuleEquiv : Bool ≃ Σ α : Type, NestRule α where
  toFun isItem := if isItem then ⟨Nat, .item⟩ else ⟨Nat, .list⟩
  invFun
    | ⟨_, .item⟩ => true
    | ⟨_, .list⟩ => false
  left_inv isItem := by cases isItem <;> rfl
  right_inv := by rintro ⟨_, _ | _⟩ <;> rfl

instance : Fintype (Σ α : Type, NestRule α) :=
  Fintype.ofEquiv Bool nestRuleEquiv

/-- Items with commas between. -/
def nestedItems : Grammar Unit NestRule (List Nat) :=
  .separatedBy (.delay fun _ => .call .item) (.spaces (.literal ","))

/-- An item is a list of items or the letter x. The value is the number of lists. -/
def nestRules : Rules Unit NestRule where
  body
    | .item => .or (.call .list) (.map (.literal "x") fun _ => 0)
    | .list =>
      .map (.between nestedItems (.literal "[") (.literal "]")) fun inner => inner.foldl (· + ·) 1

/-- A list may stand where an item may, but an item in a list is behind a bracket. -/
def nestRank : (Σ α : Type, NestRule α) → Nat
  | ⟨_, .item⟩ => 1
  | ⟨_, .list⟩ => 0

/-- The items are built from the library alone. -/
theorem isLibrary_nestedItems : nestedItems.Everywhere Grammar.IsLibrary :=
  ⟨trivial, ⟨trivial, trivial⟩, trivial, trivial, trivial, trivial⟩

/-- Both rules are built from the library alone. -/
theorem isLibrary_nestRules : nestRules.Everywhere Grammar.IsLibrary := by
  intro α rule
  cases rule with
  | item =>
    refine ⟨trivial, fun i => ?_⟩
    match i with
    | 0 => exact trivial
    | 1 => exact ⟨trivial, trivial⟩
  | list =>
    exact ⟨trivial, trivial, trivial, trivial, trivial, trivial, isLibrary_nestedItems, trivial⟩

/-- Neither of the rules goes back. -/
theorem isForward_nestRules : nestRules.Everywhere Grammar.IsForward :=
  Rules.isForward_of_isLibrary isLibrary_nestRules

/-- The comma has been taken, whatever the whitespace and the item behind it are. -/
theorem separatesByMoving_nestedItems :
    nestedItems.Everywhere (Grammar.SeparatesByMoving nestRules) := by
  refine ⟨?_, ⟨trivial, trivial⟩, trivial, trivial, trivial, trivial⟩
  intro s t hs hround
  obtain ⟨u, hsep, hitem⟩ := Rules.exists_of_reaches_zipWith (Rules.reaches_map_iff.1 hround)
  obtain ⟨v, hcomma, hspace⟩ := Rules.exists_of_reaches_zipWith (Rules.reaches_map_iff.1 hsep)
  obtain ⟨hsv, hindex⟩ := Rules.ahead_of_reaches_literal hs hcomma
  have hvu : v.Ahead u := Rules.Reaches.ahead isForward_nestRules (g := .whitespace) trivial
    hsv.wellFormed hspace
  have hut : u.Ahead t := Rules.Reaches.ahead isForward_nestRules (g := .delay fun _ => .call .item)
    ⟨trivial, trivial⟩ hvu.wellFormed hitem
  have hlength : Text.byteLength ",".toList = 1 := rfl
  have hle := (hvu.trans hut).index_le
  omega

/-- In both rules, a separator with an item behind it has moved the cursor. -/
theorem separatesByMoving_nestRules :
    nestRules.Everywhere (Grammar.SeparatesByMoving nestRules) := by
  intro α rule
  cases rule with
  | item =>
    refine ⟨trivial, fun i => ?_⟩
    match i with
    | 0 => exact trivial
    | 1 => exact ⟨trivial, trivial⟩
  | list =>
    exact ⟨trivial, trivial, trivial, trivial, trivial, trivial, separatesByMoving_nestedItems,
      trivial⟩

/-- An item in a list comes behind the bracket, and a list in an item has the smaller rank. -/
theorem rankedBy_nestRules : nestRules.RankedBy nestRank := by
  rintro ⟨⟨α, rule⟩, s⟩ ⟨⟨β, other⟩, t⟩ hs henters hstays
  cases rule with
  | item =>
    rcases henters.cases_head with hsame | ⟨part, ⟨i, -, rfl⟩, henters⟩
    · cases hsame
    match i with
    | 0 =>
      rcases henters.cases_head with hsame | ⟨part, hstarts, -⟩
      · cases hsame
        exact Nat.one_pos
      · exact hstarts.elim
    | 1 =>
      rcases henters.cases_head with hsame | ⟨part, rfl, henters⟩
      · cases hsame
      · cases Rules.eq_of_enters_literal henters
  | list =>
    rcases henters.cases_head with hsame | ⟨part, rfl, henters⟩
    · cases hsame
    rcases henters.cases_head with hsame | ⟨part, rfl, henters⟩
    · cases hsame
    rcases henters.cases_head with hsame | ⟨part, rfl | ⟨u, hbracket, rfl⟩, henters⟩
    · cases hsame
    · cases Rules.eq_of_enters_literal henters
    · obtain ⟨hsu, hindex⟩ := Rules.ahead_of_reaches_literal (s := s) hs hbracket
      have hitems := isLibrary_nestedItems.mono Grammar.isForward_of_isLibrary
      have hut : u.Ahead t := (Rules.Enters.ahead isForward_nestRules henters
        ⟨trivial, trivial, hitems, trivial⟩ hsu.wellFormed).1
      have hlength : Text.byteLength "[".toList = 1 := rfl
      have hle := hut.index_le
      have hsame : t.index = s.index := hstays
      omega

/-- Two lists, one inside the other. The text has eight bytes and there are two rules, so every run
with more than eight rounds and at least eighteen levels ends like the one with just as many. -/
theorem calls_end_nested :
    nestRules.run { rounds := 9, depth := 18 } (.call .item) (.start "[x, [x]]" ()) =
        .success { state := { text := "[x, [x]]", index := 8, context := () }, value := 2 } ∧
      (∀ budget : Budget, 8 < budget.rounds → 18 ≤ budget.depth →
        nestRules.run budget (.call .item) (.start "[x, [x]]" ()) =
          nestRules.run { rounds := 9, depth := 18 } (.call .item) (.start "[x, [x]]" ())) ∧
      List.IsChain nestRules.Nests
        [⟨⟨_, .item⟩, .start "[x, [x]]" ()⟩, ⟨⟨_, .list⟩, .start "[x, [x]]" ()⟩] ∧ 1 + 1 ≤ 18 := by
  have hs : (State.start "[x, [x]]" ()).WellFormed := State.wellFormed_start _ _
  obtain ⟨⟨o, -, hends⟩, hchains⟩ := calls_end isLibrary_nestRules separatesByMoving_nestRules
    rankedBy_nestRules .item (.start "[x, [x]]" ()) hs
  have hleast := hends { rounds := 9, depth := 18 } (by decide) (by decide)
  have hfirst : ∀ j : Fin 2, j < 0 → nestRules.Rejects
      ([.call .list, .map (.literal "x") fun _ => 0].get j) (.start "[x, [x]]" ()) :=
    fun j hj => absurd hj (Fin.not_lt_zero j)
  have hchain : List.IsChain nestRules.Nests
      [⟨⟨_, .item⟩, .start "[x, [x]]" ()⟩, ⟨⟨_, .list⟩, .start "[x, [x]]" ()⟩] :=
    .cons_cons (.single ⟨0, hfirst, rfl⟩) (.singleton _)
  refine ⟨rfl, fun budget hrounds hdepth => ?_, hchain, hchains _ hchain⟩
  rw [hleast, hends budget hrounds hdepth]

end ContextParser
