import ContextParser.Proofs.Peg.Translation

/-!
# Grammars of parsing expressions are correct

The converse of what derivations say of runs, and the two together. Where no body of a repetition
succeeds on nothing, whatever a run of the grammar of an expression returns is derived for the
expression. Parsers are taken one by one: a parser is sound for an expression when all it returns is
derived, and every combinator makes a sound parser out of sound ones.

Without the condition this fails. `many` stops after a round that stands still, and returns, where
nothing is derived.
-/

set_option autoImplicit false

namespace ContextParser.Peg

variable {N C α β γ : Type} {rules : N → Peg N}

/-- What a run from a state has returned is derived for the expression on what remains there. -/
def Explains (rules : N → Peg N) (e : Peg N) (s : State C) :
    Outcome (Failure C) (Success C α) → Prop
  | .success r => ∃ front rest,
      Derives rules e s.remaining (.consumed front rest) ∧ r.state = s.skip front
  | .failure _ => Derives rules e s.remaining .failed
  | .fault _ => True

/-- All that a parser returns is derived for the expression. -/
def Sound (rules : N → Peg N) (e : Peg N) (p : Parser C α) : Prop :=
  ∀ s : State C, s.WellFormed → Explains rules e s (p s)

variable {e left right : Peg N} {p : Parser C α} {q : Parser C β} {s : State C}

/-- A success of a sound parser, with the derivation and the state behind it. -/
theorem Sound.success (hp : Sound rules e p) (hs : s.WellFormed) {r : Success C α}
    (h : p s = .success r) :
    ∃ front rest, Derives rules e s.remaining (.consumed front rest) ∧ r.state = s.skip front ∧
      r.state.WellFormed ∧ r.state.remaining = rest := by
  have hexplained := hp s hs
  rw [h] at hexplained
  obtain ⟨front, rest, hderives, hstate⟩ := hexplained
  obtain ⟨hbehind, hrest⟩ := hderives.behind hs rfl
  rw [← hstate] at hbehind hrest
  exact ⟨front, rest, hderives, hstate, hbehind, hrest⟩

/-- Where a sound parser fails, the expression does. -/
theorem Sound.failure (hp : Sound rules e p) (hs : s.WellFormed) {f : Failure C}
    (h : p s = .failure f) : Derives rules e s.remaining .failed := by
  have hexplained := hp s hs
  rw [h] at hexplained
  exact hexplained

/-- What a run returns may be replaced by any other value in the same state. -/
theorem explains_map {o : Outcome (Failure C) (Success C α)} (f : Success C α → Success C β)
    (hf : ∀ r, (f r).state = r.state) (h : Explains rules e s o) :
    Explains rules e s (o.map f) := by
  cases o with
  | success r =>
    obtain ⟨front, rest, hderives, hstate⟩ := h
    exact ⟨front, rest, hderives, (hf r).trans hstate⟩
  | failure e => exact h
  | fault c => trivial

/-- A mapped value does not matter to expressions. -/
theorem sound_map (hp : Sound rules e p) (f : α → β) : Sound rules e (Parser.map p f) :=
  fun s hs => explains_map _ (fun _ => rfl) (hp s hs)

/-! ## Leaves -/

/-- The parser of a literal is sound for it. -/
theorem sound_literal (text : String) :
    Sound rules (.literal text) (Parser.literal text : Parser C String) := by
  intro s hs
  by_cases hstarts : text.toList <+: s.remaining
  · obtain ⟨rest, hrest⟩ := hstarts
    rw [Parser.literal_of_append hs hrest.symm]
    exact ⟨_, rest, .literal hrest.symm, rfl⟩
  · rw [Parser.literal_of_not_starting hs hstarts]
    exact .literal_failed hstarts

/-- The parser of one character of a class is sound for the class. -/
theorem sound_charClass (accepts : Char → Bool) :
    Sound rules (.charClass accepts)
      (Parser.charSpan accepts fun _ => false : Parser C String) := by
  intro s hs
  cases hremaining : s.remaining with
  | nil =>
    have hlength : Parser.spanLength accepts (fun _ => false) s.remaining = none := by
      rw [hremaining, Parser.spanLength]
    rw [Parser.charSpan_of_spanLength hs hlength, Explains, hremaining]
    exact .charClass_end
  | cons c rest =>
    by_cases hc : accepts c = true
    · rw [Parser.charSpan_single hs hremaining hc, Explains, hremaining]
      exact ⟨[c], rest, .charClass hc, rfl⟩
    · have hlength : Parser.spanLength accepts (fun _ => false) s.remaining = none := by
        rw [hremaining, Parser.spanLength, if_neg hc]
      rw [Parser.charSpan_of_spanLength hs hlength, Explains, hremaining]
      exact .charClass_failed (Bool.eq_false_iff.2 hc)

/-! ## Sequences -/

/-- Two parsers in sequence, where the expressions need not be a sequence by themselves: a family
is one of its head and its tail. -/
theorem sound_zipWith_of {whole : Peg N}
    (hboth : ∀ {cs front back middle rest : List Char},
      Derives rules left cs (.consumed front back) →
        Derives rules right back (.consumed middle rest) →
          Derives rules whole cs (.consumed (front ++ middle) rest))
    (hleft : ∀ {cs : List Char}, Derives rules left cs .failed → Derives rules whole cs .failed)
    (hright : ∀ {cs front back : List Char}, Derives rules left cs (.consumed front back) →
      Derives rules right back .failed → Derives rules whole cs .failed)
    (hp : Sound rules left p) (hq : Sound rules right q) (f : α → β → γ) :
    Sound rules whole (Parser.zipWith p q f) := by
  intro s hs
  rw [Parser.zipWith_apply]
  cases hfirst : p s with
  | failure e => exact hleft (hp.failure hs hfirst)
  | fault c => trivial
  | success r =>
    obtain ⟨front, back, hderives, hstate, hbehind, hback⟩ := hp.success hs hfirst
    dsimp only [Outcome.bind_success]
    cases hsecond : q r.state with
    | failure e =>
      have hfailed := hq.failure hbehind hsecond
      rw [hback] at hfailed
      exact hright hderives hfailed
    | fault c => trivial
    | success t =>
      obtain ⟨middle, rest, hderives', hstate', -, -⟩ := hq.success hbehind hsecond
      rw [hback] at hderives'
      refine ⟨front ++ middle, rest, hboth hderives hderives', ?_⟩
      rw [← State.skip_skip, ← hstate, ← hstate']

/-- Two sound parsers in a row are sound for the sequence of their expressions. -/
theorem sound_both (hp : Sound rules left p) (hq : Sound rules right q) (f : α → β → γ) :
    Sound rules (.both left right) (Parser.zipWith p q f) :=
  sound_zipWith_of .both .both_left_failed .both_right_failed hp hq f

/-- A family of sound parsers in a row is sound for the sequence of the family. -/
theorem sound_all {n : Nat} {τ : Fin n → Type} {parts : Fin n → Peg N}
    {ps : (i : Fin n) → Parser C (τ i)} (hps : ∀ i, Sound rules (parts i) (ps i)) :
    Sound rules (.all parts) (Parser.all ps) := by
  induction n with
  | zero => exact fun s _ => ⟨[], s.remaining, .all_nil, rfl⟩
  | succ n ih =>
    have htail := ih fun i => hps i.succ
    exact sound_zipWith_of .all_cons .all_head_failed .all_tail_failed (hps 0) htail
      fun v vs i => Fin.cases (motive := τ) v vs i

/-! ## Choices -/

/-- A choice among sound parsers is sound for the choice among their expressions. -/
theorem sound_any {n : Nat} {alternatives : Fin n → Peg N} {ps : Fin n → Parser C α}
    (hps : ∀ i, Sound rules (alternatives i) (ps i)) :
    Sound rules (.any alternatives) (Parser.any (List.ofFn ps)) := by
  induction n with
  | zero => exact fun s _ => .any_nil
  | succ n ih =>
    intro s hs
    have htail := ih (fun i => hps i.succ) s hs
    rw [Parser.any] at htail
    rw [Parser.any, List.ofFn_succ, Parser.firstSuccess]
    cases hhead : ps 0 s with
    | success r =>
      obtain ⟨front, rest, hderives, hstate, -, -⟩ := (hps 0).success hs hhead
      exact ⟨front, rest, .any_head hderives, hstate⟩
    | fault c => trivial
    | failure e =>
      have hfailed := (hps 0).failure hs hhead
      -- both choices fail at the same state, and only their messages are different
      dsimp only
      cases hfirst : Parser.firstSuccess s (List.ofFn fun i : Fin n => ps i.succ) with
      | success r =>
        rw [hfirst] at htail
        obtain ⟨front, rest, hderives, hstate⟩ := htail
        exact ⟨front, rest, .any_tail hfailed hderives, hstate⟩
      | failure messages =>
        rw [hfirst] at htail
        exact .any_tail hfailed htail
      | fault c => trivial

/-- A choice of two sound parsers is sound for the ordered choice of their expressions. -/
theorem sound_or {p q : Parser C α} (hp : Sound rules left p) (hq : Sound rules right q) :
    Sound rules (.or left right) (Parser.or p q) := by
  intro s hs
  rw [Parser.or, Parser.any, Parser.firstSuccess, Parser.firstSuccess, Parser.firstSuccess]
  cases hfirst : p s with
  | success r =>
    obtain ⟨front, rest, hderives, hstate, -, -⟩ := hp.success hs hfirst
    exact ⟨front, rest, .or_left hderives, hstate⟩
  | fault c => trivial
  | failure e =>
    have hfailed := hp.failure hs hfirst
    cases hsecond : q s with
    | success r =>
      obtain ⟨front, rest, hderives, hstate, -, -⟩ := hq.success hs hsecond
      exact ⟨front, rest, .or_right hfailed hderives, hstate⟩
    | fault c => trivial
    | failure e' => exact .or_right hfailed (hq.failure hs hsecond)

/-- An optional sound parser is sound for the optional expression. -/
theorem sound_opt (hp : Sound rules e p) : Sound rules (.opt e) (Parser.opt p) := by
  intro s hs
  rw [Parser.opt]
  cases hrun : p s with
  | success r =>
    obtain ⟨front, rest, hderives, hstate, -, -⟩ := hp.success hs hrun
    exact ⟨front, rest, .opt_some hderives, hstate⟩
  | failure f => exact ⟨[], s.remaining, .opt_none (hp.failure hs hrun), rfl⟩
  | fault c => trivial

/-! ## Repetitions

The loop ends in three ways. After a failure the repetition is over, a round that moves is followed
by the derivation for the rest, and a round that stands still would be a success on nothing, which
the body is not capable of. -/

/-- No round of a repetition stands still where the body consumes something. -/
theorem Sound.index_ne (hp : Sound rules e p) (hconsumes : Consumes rules e) (hs : s.WellFormed)
    {r : Success C α} (h : p s = .success r) : r.state.index ≠ s.index := by
  obtain ⟨front, rest, hderives, hstate, -, -⟩ := hp.success hs h
  rw [hstate, ne_eq, State.index_skip_eq_iff]
  rintro rfl
  exact hconsumes _ _ hderives

/-- A round and the rounds after it, as `many` and `many1` go on with them. -/
theorem explains_rounds {whole : Peg N} {rounds : Nat}
    (hwhole : ∀ {cs front back middle rest : List Char},
      Derives rules e cs (.consumed front back) →
        Derives rules (.many e) back (.consumed middle rest) →
          Derives rules whole cs (.consumed (front ++ middle) rest))
    (hp : Sound rules e p) (hconsumes : Consumes rules e)
    (hmany : Sound rules (.many e) (Parser.many p rounds)) (hs : s.WellFormed) {r : Success C α}
    (hround : p s = .success r) :
    Explains rules whole s
      (if r.state.index = s.index then
        .success (r.map fun v => [v])
      else
        (Parser.many p rounds r.state).map (·.map (r.value :: ·))) := by
  obtain ⟨front, back, hderives, hstate, hbehind, hback⟩ := hp.success hs hround
  rw [if_neg (hp.index_ne hconsumes hs hround)]
  refine explains_map _ (fun _ => rfl) ?_
  cases hloop : Parser.many p rounds r.state with
  | success t =>
    obtain ⟨middle, rest, hderives', hstate', -, -⟩ := hmany.success hbehind hloop
    rw [hback] at hderives'
    refine ⟨front ++ middle, rest, hwhole hderives hderives', ?_⟩
    rw [← State.skip_skip, ← hstate, ← hstate']
  | failure f =>
    have hfailed := hmany.failure hbehind hloop
    cases hfailed
  | fault c => trivial

/-- Within any number of rounds, the repetition of a sound parser is sound if its expression
consumes. -/
theorem sound_many (hp : Sound rules e p) (hconsumes : Consumes rules e) (rounds : Nat) :
    Sound rules (.many e) (Parser.many p rounds) := by
  induction rounds with
  | zero => exact fun _ _ => trivial
  | succ rounds ih =>
    intro s hs
    rw [Parser.many]
    cases hround : p s with
    | failure f => exact ⟨[], s.remaining, .many_stop (hp.failure hs hround), rfl⟩
    | fault c => trivial
    | success r => exact explains_rounds .many_step hp hconsumes ih hs hround

/-- Within any number of rounds, a repetition that has to succeed once is sound as well. -/
theorem sound_many1 (hp : Sound rules e p) (hconsumes : Consumes rules e) (rounds : Nat) :
    Sound rules (.many1 e) (Parser.many1 p rounds) := by
  cases rounds with
  | zero => exact fun _ _ => trivial
  | succ rounds =>
    intro s hs
    rw [Parser.many1]
    cases hround : p s with
    | failure f => exact .many1_failed (hp.failure hs hround)
    | fault c => trivial
    | success r =>
      have hmany := sound_many hp hconsumes rounds
      exact explains_rounds .many1 hp hconsumes hmany hs hround

/-! ## Expressions and nonterminals -/

/-- The parser of an expression is sound if the calls of nonterminals are. -/
theorem sound_toParser {rounds : Nat} {call : {α : Type} → PegRule N α → Parser C α}
    (hcall : ∀ name, Sound rules (rules name) (call (.nonterminal name)))
    (e : Peg N) (he : e.Progressive rules) : Sound rules e (e.toGrammar.toParser rounds call) := by
  induction e with
  | literal text => exact sound_map (sound_literal text) _
  | charClass accepts => exact sound_map (sound_charClass accepts) _
  | both left right ihleft ihright =>
    exact sound_map (sound_both (ihleft he.1) (ihright he.2) _) _
  | all parts ih => exact sound_map (sound_all fun i => ih i (he i)) _
  | or left right ihleft ihright => exact sound_or (ihleft he.1) (ihright he.2)
  | any alternatives ih => exact sound_any fun i => ih i (he i)
  | many body ih => exact sound_map (sound_many (ih he.2) he.1 rounds) _
  | many1 body ih => exact sound_map (sound_many1 (ih he.2) he.1 rounds) _
  | opt body ih => exact sound_map (sound_opt (ih he)) _
  | call name =>
    intro s hs
    have hbody := hcall name s hs
    show Explains rules (.call name) s (call (.nonterminal name) s)
    cases hrun : call (.nonterminal name) s with
    | success r =>
      rw [hrun] at hbody
      obtain ⟨front, rest, hderives, hstate⟩ := hbody
      exact ⟨front, rest, .call hderives, hstate⟩
    | failure f =>
      rw [hrun] at hbody
      exact .call hbody
    | fault c => trivial

/-- The calls of nonterminals are sound to any depth, the bodies being so to a depth one less. -/
theorem sound_call (hrules : ∀ name, (rules name).Progressive rules) (rounds depth : Nat)
    (name : N) :
    Sound rules (rules name)
      ((toRules rules : Rules C _).call rounds depth (.nonterminal name)) := by
  induction depth generalizing name with
  | zero => exact fun _ _ => trivial
  | succ depth ih => exact sound_toParser ih (rules name) (hrules name)

/-- Within any budget, the grammar of a progressive expression is sound for it. -/
theorem sound_run (hrules : ∀ name, (rules name).Progressive rules) (he : e.Progressive rules)
    (budget : Budget) : Sound rules e ((toRules rules : Rules C _).run budget e.toGrammar) :=
  sound_toParser (sound_call hrules budget.rounds budget.depth) e he

/-- The grammar of a parsing expression does what the semantics of parsing expressions says. Where a
prefix is derived to be consumed, every run whose budget is large enough succeeds, with the cursor
moved by the bytes of the prefix and nothing else changed; where failure is derived, it fails. If no
body of a repetition succeeds on nothing, what any run returns is derived in turn. -/
theorem run_toGrammar_correct (rules : N → Peg N) (e : Peg N) {s : State C} (hs : s.WellFormed) :
    (∀ front rest, Derives rules e s.remaining (.consumed front rest) →
      ∃ least : Budget, ∀ budget, least ≤ budget →
        (toRules rules).run budget e.toGrammar s =
          .success { state := { s with index := s.index + Text.byteLength front }, value := () }) ∧
    (Derives rules e s.remaining .failed →
      ∃ (failure : Failure C) (least : Budget), ∀ budget, least ≤ budget →
        (toRules rules).run budget e.toGrammar s = .failure failure) ∧
    ((∀ name, (rules name).Progressive rules) → e.Progressive rules → ∀ budget,
      (∀ r, (toRules rules).run budget e.toGrammar s = .success r →
        ∃ front rest, Derives rules e s.remaining (.consumed front rest) ∧
          r.state = { s with index := s.index + Text.byteLength front }) ∧
      ∀ failure, (toRules rules).run budget e.toGrammar s = .failure failure →
        Derives rules e s.remaining .failed) := by
  refine ⟨?_, ?_, ?_⟩
  · intro front rest h
    obtain ⟨⟨⟩, hends⟩ := realizes_of_derives h hs rfl
    exact hends
  · intro h
    exact realizes_of_derives h hs rfl
  · intro hrules he budget
    have hsound := sound_run (C := C) hrules he budget
    refine ⟨fun r hrun => ?_, fun failure hrun => hsound.failure hs hrun⟩
    obtain ⟨front, rest, hderives, hstate, -, -⟩ := hsound.success hs hrun
    exact ⟨front, rest, hderives, hstate⟩

/-- Numbers in any number of guillemets. -/
def quotedNumber : Unit → Peg Unit := fun _ =>
  .or (.both (.literal "«") (.both (.call ()) (.literal "»"))) (.many1 (.charClass Char.isDigit))

/-- A class of characters consumes a character whenever it succeeds. -/
theorem consumes_charClass {N : Type} {rules : N → Peg N} (accepts : Char → Bool) :
    Consumes rules (.charClass accepts) := by
  intro cs rest h
  cases h

/-- Numbers in guillemets repeat nothing but digits, which consume. -/
theorem progressive_quotedNumber (name : Unit) :
    (quotedNumber name).Progressive quotedNumber := by
  refine ⟨⟨trivial, trivial, trivial⟩, ?_, trivial⟩
  exact consumes_charClass Char.isDigit

/-- A digit in one pair of guillemets is derived to the end of the text. -/
theorem derives_quotedNumber :
    Derives quotedNumber (.call ()) ['«', '7', '»'] (.consumed ['«', '7', '»'] []) := by
  have hopen : Derives quotedNumber (.literal "«") ['«', '7', '»'] (.consumed ['«'] ['7', '»']) :=
    .literal rfl
  have hclose : Derives quotedNumber (.literal "»") ['»'] (.consumed ['»'] []) := .literal rfl
  have hbare : Derives quotedNumber (.literal "«") ['7', '»'] .failed :=
    .literal_failed (by decide)
  have hdigit : Derives quotedNumber (.charClass Char.isDigit) ['7', '»'] (.consumed ['7'] ['»']) :=
    .charClass (by decide)
  have hend : Derives quotedNumber (.charClass Char.isDigit) ['»'] .failed :=
    .charClass_failed (by decide)
  have hnumber : Derives quotedNumber (.call ()) ['7', '»'] (.consumed ['7'] ['»']) :=
    .call (.or_right (.both_left_failed hbare) (hdigit.many1 (.many_stop hend)))
  exact .call (.or_left (hopen.both (hnumber.both hclose)))

/-- A digit in guillemets is read to its end once the budget suffices, each guillemet being two
bytes long, and is rejected within no budget. -/
theorem run_toGrammar_quotedNumber :
    (State.start "«7»" ()).WellFormed ∧
    (∃ least : Budget, ∀ budget, least ≤ budget →
      (toRules quotedNumber).run budget (toGrammar (.call ())) (State.start "«7»" ()) =
        .success { state := { text := "«7»", index := 5, context := () }, value := () }) ∧
    ∀ budget failure,
      (toRules quotedNumber).run budget (toGrammar (.call ())) (State.start "«7»" ()) ≠
        .failure failure := by
  have hs : (State.start "«7»" ()).WellFormed := State.wellFormed_start _ _
  obtain ⟨hconsumed, -, hreturned⟩ := run_toGrammar_correct quotedNumber (.call ()) hs
  refine ⟨hs, hconsumed _ _ derives_quotedNumber, fun budget failure hrun => ?_⟩
  have hfailed := (hreturned progressive_quotedNumber trivial budget).2 failure hrun
  cases hfailed.deterministic derives_quotedNumber

end ContextParser.Peg
