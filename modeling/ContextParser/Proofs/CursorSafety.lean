import ContextParser.Parser.Whole
import ContextParser.Proofs.Contract.Grammar
import ContextParser.Proofs.Cursor

/-!
# The cursor stays inside the text

Whatever a grammar does, the state in which a run ends has the text of the state in which it
started, and a cursor on a boundary of that text which is not before the one at the start. This
holds of successes and of failures, so no failure is ever reported at a place that does not exist
(`endState_within_text`).

A grammar without predicates and parsers from outside cannot break off either: no length it asks
for, no index it moves to and no cut it makes is off a boundary, and what is left of the faults is
the budget (`library_faults_only_outOfBudget`).
-/

set_option autoImplicit false

namespace ContextParser

variable {C : Type} {R : Type → Type} {α : Type}

namespace State

/-- The second state has the text of the first, and a cursor on a boundary that is not before the
first one. -/
structure Ahead (s t : State C) : Prop where
  text_eq : t.text = s.text
  wellFormed : t.WellFormed
  index_le : s.index ≤ t.index

namespace Ahead

variable {s t u : State C}

/-- A well-formed state is ahead of itself. -/
theorem refl (hs : s.WellFormed) : s.Ahead s := ⟨rfl, hs, Nat.le_refl _⟩

/-- What is ahead of a state ahead is ahead. -/
theorem trans (h : s.Ahead t) (h' : t.Ahead u) : s.Ahead u :=
  ⟨h'.text_eq.trans h.text_eq, h'.wellFormed, Nat.le_trans h.index_le h'.index_le⟩

/-- The cursor of a state ahead is on a boundary of the text of the first. -/
theorem isBoundary (h : s.Ahead t) : Text.isBoundary t.index s.text.toList = true := by
  rw [← h.text_eq]
  exact h.wellFormed

/-- The cursor of a state ahead is not past the end of the text. -/
theorem index_le_byteLength (h : s.Ahead t) : t.index ≤ Text.byteLength s.text.toList :=
  Text.le_of_isBoundary h.isBoundary

end Ahead

end State

/-- The state in which a run ends, in success and in failure. -/
def Outcome.endState? : Outcome (Failure C) (Success C α) → Option (State C)
  | .success r => some r.state
  | .failure e => some e.state
  | .fault _ => none

/-- Where a failure may be reported just where a success may end, so does every run. -/
theorem Contract.leads_endState {K : Contract C} {s t : State C}
    {o : Outcome (Failure C) (Success C α)} (hreports : ∀ {e}, K.reports s e → K.leads s e.state)
    (h : K.Allows s o) (ht : o.endState? = some t) : K.leads s t := by
  cases o with
  | success r =>
    obtain rfl : r.state = t := Option.some.inj ht
    exact h
  | failure e =>
    obtain rfl : e.state = t := Option.some.inj ht
    exact hreports h
  | fault c => simp [Outcome.endState?] at ht

/-- A parser that ends every run in a state ahead of the one in which the run started. -/
def Parser.MovesForward (p : Parser C α) : Prop :=
  ∀ s : State C, s.WellFormed → ∀ t, (p s).endState? = some t → s.Ahead t

/-- To move forward only, and to end in none but the given faults. -/
def Contract.cursor (C : Type) (faults : Fault → Prop) (hbudget : faults .outOfBudget) :
    Contract C where
  starts := State.WellFormed
  leads := State.Ahead
  reports s e := s.Ahead e.state
  faults := faults
  leads_refl := State.Ahead.refl
  leads_trans := State.Ahead.trans
  starts_of_leads _ h := h.wellFormed
  reports_mismatch _ hs := .refl hs
  reports_exhausted _ hs := .refl hs
  reports_label _ h := h
  reports_of_leads := State.Ahead.trans
  faults_outOfBudget := hbudget

namespace Contract

variable {faults : Fault → Prop} {hbudget : faults .outOfBudget}

/-- A parser that keeps the contract of the cursor moves forward only. -/
theorem movesForward_of_kept {p : Parser C α} (hp : (cursor C faults hbudget).Kept p) :
    p.MovesForward :=
  fun s hs _ ht => leads_endState id (hp s hs) ht

/-- A parser that moves forward only keeps the contract of the cursor, where all faults are
allowed. -/
theorem kept_of_movesForward {p : Parser C α} (hp : p.MovesForward) (hfaults : ∀ c, faults c) :
    (cursor C faults hbudget).Kept p := by
  intro s hs
  cases hrun : p s with
  | success r => exact hp s hs r.state (by rw [hrun]; rfl)
  | failure e => exact hp s hs e.state (by rw [hrun]; rfl)
  | fault c => exact hfaults c

/-- `when` moves forward. The only fault that it can add is its own, for a length that does not
fit. -/
theorem kept_when {predicate : State C → Option Nat} (message : String)
    (hlength : ∀ s length, predicate s = some length →
      Text.isBoundary length s.remaining = true ∨ faults (.lengthOffBoundary length)) :
    (cursor C faults hbudget).Kept (Parser.when predicate message) := by
  intro s hs
  rw [Parser.when_of_wellFormed hs]
  cases hpredicate : predicate s with
  | none => exact State.Ahead.refl hs
  | some length =>
    dsimp only
    split
    · next hfits =>
      obtain ⟨front, back, hremaining, rfl⟩ := Text.isBoundary_iff.1 hfits
      exact ⟨rfl, State.wellFormed_skip hs hremaining, Nat.le_add_right _ _⟩
    · next hoff => exact (hlength s length hpredicate).resolve_left hoff

end Contract

namespace Parser

/-- A predicate that only asks for lengths that fit into what remains of the text. -/
def Fits (predicate : State C → Option Nat) : Prop :=
  ∀ s length, predicate s = some length → Text.isBoundary length s.remaining = true

/-- Every text has a boundary at its start. -/
theorem isBoundary_zero (cs : List Char) : Text.isBoundary 0 cs = true := by
  simp [Text.isBoundary]

/-- A predicate that only says yes or no asks for nothing that would not fit. -/
theorem fits_assertion (holds : State C → Bool) :
    Fits fun s => if holds s then some 0 else none := by
  intro s length h
  obtain ⟨-, rfl⟩ : holds s = true ∧ 0 = length := by simpa using h
  exact isBoundary_zero _

/-- The length of a text fits where that text comes next. -/
theorem fits_isPrefixOf (cs : List Char) :
    Fits fun s : State C =>
      if cs.isPrefixOf s.remaining then some (Text.byteLength cs) else none := by
  intro s length h
  obtain ⟨hstarts, rfl⟩ : cs <+: s.remaining ∧ Text.byteLength cs = length := by simpa using h
  obtain ⟨back, hback⟩ := hstarts
  exact Text.isBoundary_iff.2 ⟨cs, back, hback.symm, rfl⟩

/-- A run of characters from the start of a text ends on a boundary. -/
theorem isBoundary_takeWhile (accepts : Char → Bool) (cs : List Char) :
    Text.isBoundary (Text.byteLength (cs.takeWhile accepts)) cs = true :=
  Text.isBoundary_iff.2 ⟨_, cs.dropWhile accepts, List.takeWhile_append_dropWhile.symm, rfl⟩

/-- The length of the run of a class fits. -/
theorem fits_takeWhile (accepts : Char → Bool) :
    Fits fun s : State C => some (Text.byteLength (s.remaining.takeWhile accepts)) := by
  intro s length h
  obtain rfl := Option.some.inj h
  exact isBoundary_takeWhile accepts s.remaining

/-- The length of the next character fits, whatever is asked of the character. -/
theorem fits_peek (accepts : Char → Bool) :
    Fits fun s : State C => (s.peek.filter accepts).map Char.utf8Size := by
  intro s length h
  cases hremaining : s.remaining with
  | nil => simp [State.peek, hremaining] at h
  | cons c cs =>
    obtain ⟨d, ⟨rfl, -⟩, rfl⟩ : ∃ d, (c = d ∧ accepts d = true) ∧ d.utf8Size = length := by
      simpa [State.peek, hremaining] using h
    exact Text.isBoundary_iff.2 ⟨[c], cs, rfl, by simp⟩

/-- The first character and the run behind it make up one leading part of the text. -/
theorem fits_spanLength (initial following : Char → Bool) :
    Fits fun s : State C => spanLength initial following s.remaining := by
  intro s length h
  cases hremaining : s.remaining with
  | nil => simp [hremaining, spanLength] at h
  | cons c cs =>
    obtain ⟨-, rfl⟩ :
        initial c = true ∧
          c.utf8Size + Text.byteLength (cs.takeWhile following) = length := by
      simpa [hremaining, spanLength] using h
    refine Text.isBoundary_iff.2 ⟨c :: cs.takeWhile following, cs.dropWhile following, ?_, rfl⟩
    rw [List.cons_append, List.takeWhile_append_dropWhile]

end Parser

namespace Grammar

/-- A node of the library itself: neither a predicate nor a parser from outside. -/
def IsLibrary : {α : Type} → Grammar C R α → Prop
  | _, when _ _ => False
  | _, custom _ => False
  | _, _ => True

/-- A node whose parser, if it comes from outside, moves forward. -/
def IsForward : {α : Type} → Grammar C R α → Prop
  | _, custom parser => parser.MovesForward
  | _, _ => True

end Grammar

namespace Contract

variable {faults : Fault → Prop} {hbudget : faults .outOfBudget}

/-- A predicate whose lengths fit adds no fault to `when`. -/
theorem kept_when_of_fits {predicate : State C → Option Nat} (message : String)
    (hfits : Parser.Fits predicate) :
    (cursor C faults hbudget).Kept (Parser.when predicate message) :=
  kept_when message fun s length h => .inl (hfits s length h)

/-- The parser of a fixed text moves forward only, and never breaks off. -/
theorem kept_literal (text : String) : (cursor C faults hbudget).Kept (Parser.literal text) :=
  kept_map (kept_when_of_fits _ (Parser.fits_isPrefixOf text.toList)) _

/-- The parser of word boundaries stays where it is, and never breaks off. -/
theorem kept_wordBoundary : (cursor C faults hbudget).Kept Parser.wordBoundary :=
  kept_when_of_fits _ (Parser.fits_assertion Parser.isAtWordBoundary)

/-- The parser of a span moves forward only, and never breaks off. -/
theorem kept_charSpan (initial following : Char → Bool) :
    (cursor C faults hbudget).Kept (Parser.charSpan initial following) :=
  kept_map (kept_withText (kept_when_of_fits _ (Parser.fits_spanLength initial following))) _

/-- Every node of the library moves forward without a fault of its own. -/
theorem covers_of_isLibrary {g : Grammar C R α} (hg : g.IsLibrary) :
    (cursor C faults hbudget).Covers g := by
  cases g with
  | when => exact hg.elim
  | custom => exact hg.elim
  | endOfText => exact kept_when_of_fits _ (Parser.fits_assertion State.isAtEnd)
  | literal text => exact kept_literal text
  | keyword text => exact kept_seqLeft (kept_literal text) kept_wordBoundary
  | wordBoundary => exact kept_wordBoundary
  | whitespace => exact kept_when_of_fits _ (Parser.fits_takeWhile Text.isWhitespace)
  | whitespaceChar => exact kept_when_of_fits _ (Parser.fits_peek Text.isWhitespace)
  | charSpan initial following => exact kept_charSpan initial following
  | modifyContext grammar f => exact fun a t ht => ⟨rfl, ht, Nat.le_refl _⟩
  | _ => exact trivial

/-- Where faults do not matter, any predicate will do, and any parser that moves forward. -/
theorem covers_of_isForward (hfaults : ∀ c, faults c) {g : Grammar C R α} (hg : g.IsForward) :
    (cursor C faults hbudget).Covers g := by
  cases g with
  | when predicate message => exact kept_when message fun _ _ _ => .inr (hfaults _)
  | custom parser => exact kept_of_movesForward hg hfaults
  | _ => exact covers_of_isLibrary trivial

end Contract

/-- Wherever a run of a grammar ends, be it in success or in failure, it has kept the text, and its
cursor is on a boundary between the cursor at the start and the end of the text. Predicates may ask
for any length; parsers from outside have to move forward themselves. -/
theorem endState_within_text {rules : Rules C R} (hrules : rules.Everywhere Grammar.IsForward)
    {g : Grammar C R α} (hg : g.Everywhere Grammar.IsForward) (budget : Budget) {s t : State C}
    (hs : s.WellFormed) (ht : (rules.run budget g s).endState? = some t) :
    t.text = s.text ∧ Text.isBoundary t.index s.text.toList = true ∧ s.index ≤ t.index ∧
      t.index ≤ Text.byteLength s.text.toList := by
  have hcovers : ∀ {β : Type} (g : Grammar C R β), g.IsForward →
      (Contract.cursor C (fun _ => True) trivial).Covers g := fun _ hnode =>
    Contract.covers_of_isForward (fun _ => trivial) hnode
  have hkept := Contract.kept_run (fun rule => (hrules rule).mono hcovers) budget (hg.mono hcovers)
  have hahead := Contract.movesForward_of_kept hkept s hs t ht
  exact ⟨hahead.text_eq, hahead.isBoundary, hahead.index_le, hahead.index_le_byteLength⟩

/-- One character of any kind, taken by a parser from outside. -/
def anyChar : Parser Unit Unit :=
  Parser.when (fun s => s.peek.map Char.utf8Size) "Expected character"

/-- A rule that takes one character after the other, and so fails at the end of every text. -/
def allChars : Rules Unit fun _ => Unit where
  body _ := .bind (.custom anyChar) fun _ => .call ()

/-- A parser that takes the length of the next character moves forward only. -/
theorem movesForward_anyChar : anyChar.MovesForward := by
  have hkept : (Contract.cursor Unit (fun _ => True) trivial).Kept anyChar :=
    Contract.kept_when _ fun _ _ _ => .inr trivial
  exact Contract.movesForward_of_kept hkept

/-- The failure behind the last of two characters, the first of which takes three bytes. -/
theorem endState_within_text_allChars :
    ∃ t, (allChars.run { rounds := 0, depth := 3 } (.call () : Grammar Unit _ Unit)
        (.start "€)" ())).endState? = some t ∧
      t.text = "€)" ∧ Text.isBoundary t.index "€)".toList = true ∧ 0 ≤ t.index ∧
        t.index ≤ Text.byteLength "€)".toList := by
  have hrules : allChars.Everywhere Grammar.IsForward := fun _ =>
    ⟨trivial, movesForward_anyChar, fun _ => trivial⟩
  have hcall : (.call () : Grammar Unit (fun _ => Unit) Unit).Everywhere Grammar.IsForward :=
    trivial
  have hs : (State.start "€)" ()).WellFormed := State.wellFormed_start _ _
  exact ⟨{ text := "€)", index := 4, context := () }, rfl,
    endState_within_text hrules hcall { rounds := 0, depth := 3 } hs rfl⟩

/-- The cuts that give the position of a well-formed state succeed. -/
theorem State.ofOffset_of_wellFormed {s : State C} (hs : s.WellFormed) :
    Position.ofOffset s.text s.index = .ok s.position := by
  have hcut := splitAt?_of_wellFormed hs
  rw [position, Position.ofOffset_of_splitAt? hcut, Position.locate_of_splitAt? hcut]

/-- A whole run that stops early reports the state where it stopped, which is ahead of the start
like any other that the parser ends in. -/
theorem Contract.allows_parseWith {faults : Fault → Prop} {hbudget : faults .outOfBudget}
    {p : Parser C α} (hp : (cursor C faults hbudget).Kept p) (text : String) (context : C) :
    (cursor C faults hbudget).Allows (.start text context) (p.parseWith text context) := by
  unfold Parser.parseWith
  apply allows_bind (hp _ (State.wellFormed_start text context))
  intro r hr
  split
  · exact hr
  · exact hr

/-- No fault but the budget, and a position for every failure: what is left to say of an outcome
once it is known to be ahead of the start. -/
theorem Contract.faults_and_positions {s : State C} {o : Outcome (Failure C) (Success C α)}
    (h : (cursor C (· = .outOfBudget) rfl).Allows s o) :
    (∀ c, o = .fault c → c = .outOfBudget) ∧
      ∀ e, o = .failure e → Position.ofOffset e.state.text e.state.index = .ok e.position := by
  constructor
  · rintro c rfl
    exact h
  · rintro e rfl
    exact State.ofOffset_of_wellFormed h.wellFormed

/-- A run for value and context breaks off only where the run on the whole text does. -/
theorem Parser.parseWith_of_runWith_fault {p : Parser C α} {text : String} {context : C}
    {c : Fault} (h : p.runWith text context = .fault c) :
    p.parseWith text context = .fault c := by
  unfold runWith at h
  cases hrun : p.parseWith text context with
  | success r => simp [hrun] at h
  | failure e => simp [hrun] at h
  | fault c' =>
    rw [hrun] at h
    exact congrArg Outcome.fault (Outcome.fault.inj h)

/-- The error of a run for value and context is the failure on the whole text, told by its place. -/
theorem Parser.parseWith_of_runWith_failure {p : Parser C α} {text : String} {context : C}
    {err : ParseError} (h : p.runWith text context = .failure err) :
    ∃ e, p.parseWith text context = .failure e ∧ err = e.toParseError := by
  unfold runWith at h
  cases hrun : p.parseWith text context with
  | success r => simp [hrun] at h
  | failure e =>
    rw [hrun] at h
    exact ⟨e, rfl, (Outcome.failure.inj h).symm⟩
  | fault c => simp [hrun] at h

/-- Of a grammar that is built from the library alone, no run on a well-formed state ends in a fault
other than the budget, and neither does a run on a whole text. Every failure and every error that is
reported has a position: the cuts by which it is found succeed. -/
theorem library_faults_only_outOfBudget {rules : Rules C R}
    (hrules : rules.Everywhere Grammar.IsLibrary) {g : Grammar C R α}
    (hg : g.Everywhere Grammar.IsLibrary) (budget : Budget) :
    (∀ s : State C, s.WellFormed →
      (∀ c, rules.run budget g s = .fault c → c = .outOfBudget) ∧
      ∀ e, rules.run budget g s = .failure e →
        Position.ofOffset e.state.text e.state.index = .ok e.position) ∧
    ∀ (text : String) (context : C),
      (∀ c, (rules.run budget g).parseWith text context = .fault c → c = .outOfBudget) ∧
      (∀ e, (rules.run budget g).parseWith text context = .failure e →
        Position.ofOffset e.state.text e.state.index = .ok e.position) ∧
      (∀ c, (rules.run budget g).runWith text context = .fault c → c = .outOfBudget) ∧
      ∀ err, (rules.run budget g).runWith text context = .failure err →
        Position.ofOffset text err.position.offset = .ok err.position := by
  have hcovers : ∀ {β : Type} (g : Grammar C R β), g.IsLibrary →
      (Contract.cursor C (· = .outOfBudget) rfl).Covers g := fun _ hnode =>
    Contract.covers_of_isLibrary hnode
  have hkept := Contract.kept_run (fun rule => (hrules rule).mono hcovers) budget (hg.mono hcovers)
  refine ⟨fun s hs => Contract.faults_and_positions (hkept s hs), fun text context => ?_⟩
  have hallows := Contract.allows_parseWith hkept text context
  obtain ⟨hfaults, hpositions⟩ := Contract.faults_and_positions hallows
  refine ⟨hfaults, hpositions, fun c hrun => ?_, fun err hrun => ?_⟩
  · exact hfaults c (Parser.parseWith_of_runWith_fault hrun)
  · obtain ⟨e, hparse, rfl⟩ := Parser.parseWith_of_runWith_failure hrun
    have hposition := hpositions e hparse
    rw [hparse] at hallows
    have htext : e.state.text = text := hallows.text_eq
    have hoffset : e.position.offset = e.state.index := Position.offset_locate ..
    show Position.ofOffset text e.position.offset = .ok e.position
    rw [hoffset, ← htext]
    exact hposition

/-- A rule that takes one accented letter after the other. -/
def accents : Rules Unit fun _ => Unit where
  body _ := .bind (.spaces (.literal "é")) fun _ => .call ()

/-- A failure behind two accented letters, whose offset counts bytes and whose column does not. -/
theorem library_faults_only_outOfBudget_accents :
    (accents.run { rounds := 0, depth := 3 } (.call () : Grammar Unit _ Unit)).runWith "é é4" () =
      .failure
        { kind := .mismatch, message := "Expected \"é\"",
          position := { offset := 5, line := 1, column := 4 } } ∧
      Position.ofOffset "é é4" 5 = .ok { offset := 5, line := 1, column := 4 } := by
  have hrules : accents.Everywhere Grammar.IsLibrary := fun _ =>
    ⟨trivial, ⟨trivial, trivial, trivial, trivial⟩, fun _ => trivial⟩
  have hcall : (.call () : Grammar Unit (fun _ => Unit) Unit).Everywhere Grammar.IsLibrary :=
    trivial
  obtain ⟨-, hwhole⟩ := library_faults_only_outOfBudget hrules hcall { rounds := 0, depth := 3 }
  obtain ⟨-, -, -, hposition⟩ := hwhole "é é4" ()
  let err : ParseError :=
    { kind := .mismatch, message := "Expected \"é\"",
      position := { offset := 5, line := 1, column := 4 } }
  exact ⟨rfl, hposition err rfl⟩

end ContextParser
