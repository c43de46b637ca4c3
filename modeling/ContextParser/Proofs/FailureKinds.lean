import ContextParser.Proofs.Attempts
import ContextParser.Proofs.Endings
import ContextParser.Proofs.Obstacles
import ContextParser.Proofs.OrderedChoice
import ContextParser.Proofs.WholeTexts

/-!
# What a failure tells

The kind of a failure tells where it comes from. A mismatch comes from a leaf of the grammar, and an
exhaustion of alternatives from a choice that was tried from the very state that the failure
carries, whatever label it has been given since (`Rules.Caused`). Trailing input is reported by runs
on whole texts alone, and only after the grammar itself has succeeded
(`failure_kinds_tell_causes`).

Most combinators pass on the failure of a part or make a success of it. A choice drops the failures
of its alternatives and makes its own, and a label keeps the kind and the state. So the proof
follows a failure down into the grammar until it comes to the attempt that has made it.
-/

set_option autoImplicit false

namespace ContextParser

variable {C : Type} {R : Type → Type} {α β : Type}

/-! ## Causes -/

/-- A node whose parser belongs to the library, with predicates of the user's. -/
def Grammar.IsOwn : Grammar C R α → Prop
  | .custom _ => False
  | _ => True

namespace Rules

variable {rules : Rules C R}

/-- What the kind of a failure tells about an attempt that has ended in it: something did not match,
or the alternatives of a choice failed that was tried on the way, from the state that the failure
carries. -/
def Caused (rules : Rules C R) (attempt : Attempt C R) (e : Failure C) : Prop :=
  e.kind = .mismatch ∨
    e.kind = .exhaustedAlternatives ∧
      ∃ (n : Nat) (β : Type) (grammars : Fin n → Grammar C R β),
        rules.Visits attempt ⟨.any grammars, e.state⟩ ∧ rules.Rejects (.any grammars) e.state

/-- What has caused the failure of an attempt on the way is a cause for the whole. -/
theorem Caused.of_visits {attempt part : Attempt C R} {e : Failure C}
    (hvisits : rules.Visits attempt part) (h : rules.Caused part e) : rules.Caused attempt e := by
  rcases h with hkind | ⟨hkind, n, β, grammars, hchoice, hrejects⟩
  · exact .inl hkind
  · exact .inr ⟨hkind, n, β, grammars, hvisits.trans hchoice, hrejects⟩

/-- What has caused the failure of a part is a cause for the whole. -/
theorem Caused.of_starts {attempt part : Attempt C R} {e : Failure C}
    (hstarts : rules.Starts attempt part) (h : rules.Caused part e) : rules.Caused attempt e :=
  h.of_visits (.single (.inl hstarts))

/-- The message of a failure is no matter of its cause. -/
theorem Caused.congr {attempt : Attempt C R} {e e' : Failure C} (h : rules.Caused attempt e')
    (hkind : e.kind = e'.kind) (hstate : e.state = e'.state) : rules.Caused attempt e := by
  rw [Caused, hkind, hstate]
  exact h

/-- The failure of a grammar comes from one of its parts, unless the grammar itself makes it. -/
theorem caused_of_run_calls {b : Budget}
    (hcalls : ∀ {β : Type} (rule : R β) s e, rules.run b (.call rule) s = .failure e →
      rules.Caused ⟨.call rule, s⟩ e)
    {g : Grammar C R α} (hg : g.Everywhere Grammar.IsOwn) {s : State C} {e : Failure C}
    (h : rules.run b g s = .failure e) : rules.Caused ⟨g, s⟩ e := by
  induction g generalizing s e with
  | succeed value => cases show Outcome.success _ = Outcome.failure e from h
  | context => cases show Outcome.success _ = Outcome.failure e from h
  | fail message =>
    obtain rfl := Outcome.failure.inj h
    exact .inl rfl
  | when predicate message => exact .inl ((Parser.isPlain_when predicate message).kind_of_failure h)
  | endOfText => exact .inl (Parser.isPlain_endOfText.kind_of_failure h)
  | literal text => exact .inl ((Parser.isPlain_literal text).kind_of_failure h)
  | keyword text => exact .inl ((Parser.isPlain_keyword text).kind_of_failure h)
  | wordBoundary => exact .inl (Parser.isPlain_wordBoundary.kind_of_failure h)
  | whitespace => exact .inl (Parser.isPlain_whitespace.kind_of_failure h)
  | whitespaceChar => exact .inl (Parser.isPlain_whitespaceChar.kind_of_failure h)
  | charSpan initial following => exact .inl ((Parser.isPlain_charSpan _ _).kind_of_failure h)
  | custom parser => exact hg.elim
  | call rule => exact hcalls rule s e h
  | delay grammar ih => exact (ih () hg.2 h).of_starts rfl
  | bind grammar next ih ihnext =>
    rcases Outcome.bind_eq_failure_iff.1 h with h | ⟨r, hr, h⟩
    · exact (ih hg.2.1 h).of_starts (.inl rfl)
    · have hends := EndsIn.of_run b hr (by simp)
      exact (ihnext r.value (hg.2.2 r.value) h).of_starts (.inr ⟨r, hends, rfl⟩)
  | map grammar f ih => exact (ih hg.2 (Outcome.map_eq_failure_iff.1 h)).of_starts rfl
  | mapWith grammar f ih => exact (ih hg.2 (Outcome.map_eq_failure_iff.1 h)).of_starts rfl
  | modifyContext grammar f ih => exact (ih hg.2 (Outcome.map_eq_failure_iff.1 h)).of_starts rfl
  | withText grammar ih => exact (ih hg.2 (Outcome.map_eq_failure_iff.1 h)).of_starts rfl
  | zipWith left right f ihl ihr =>
    rw [run_zipWith] at h
    rcases Outcome.bind_eq_failure_iff.1 h with h | ⟨r, hr, h⟩
    · exact (ihl hg.2.1 h).of_starts (.inl rfl)
    · have hright := ihr hg.2.2 (Outcome.map_eq_failure_iff.1 h)
      exact hright.of_starts (.inr ⟨r.state, Reaches.of_run b hr, rfl⟩)
  | all grammars ih =>
    obtain ⟨i, t, harrives, hi⟩ := Parser.all_obstacle?_iff.1 (Outcome.eq_failure_iff.1 h)
    have hmember := ih i (hg.2 i) (Outcome.eq_failure_iff.2 hi)
    exact hmember.of_starts ⟨b, i, t, harrives, rfl⟩
  | any grammars ih =>
    -- the failures of the alternatives are gone, and the choice reports its own state
    obtain ⟨es, -, rfl⟩ := Parser.any_eq_failure_iff.1 h
    exact .inr ⟨rfl, _, _, grammars, .refl, Rejects.of_run b h⟩
  | many grammar ih => exact absurd h (Parser.many_ne_failure _ _ s e)
  | many1 grammar ih =>
    exact (ih hg.2 (Parser.many1_eq_failure h)).of_starts ⟨s, .refl, rfl⟩
  | separatedBy grammar separator ihg ihs =>
    exact absurd h (Parser.separatedBy_ne_failure _ _ _ s e)
  | opt grammar ih => exact absurd h (Parser.opt_ne_failure _ s e)
  | label grammar message ih =>
    obtain ⟨e', he', hkind, hstate⟩ := Parser.label_eq_failure h
    have hpart : rules.Starts ⟨.label grammar message, s⟩ ⟨grammar, s⟩ := rfl
    exact ((ih hg.2 he').of_starts hpart).congr hkind hstate

/-- The induction is on the depth to which rules call each other: a reference fails as the body that
it opens, which has one level less for the references in it. -/
theorem caused_of_call (hrules : rules.Everywhere Grammar.IsOwn) {rounds depth : Nat} (rule : R α)
    {s : State C} {e : Failure C}
    (h : rules.run { rounds, depth } (.call rule) s = .failure e) :
    rules.Caused ⟨.call rule, s⟩ e := by
  induction depth generalizing α s e with
  | zero => cases h
  | succ depth ih =>
    rw [run_call] at h
    have hbody := caused_of_run_calls (fun rule _ _ h => ih rule h) (hrules rule) h
    exact hbody.of_visits (.single (.inr rfl))

/-- Every failure of a grammar without parsers from outside has a cause. -/
theorem caused_of_run (hrules : rules.Everywhere Grammar.IsOwn) (b : Budget)
    {g : Grammar C R α} (hg : g.Everywhere Grammar.IsOwn) {s : State C} {e : Failure C}
    (h : rules.run b g s = .failure e) : rules.Caused ⟨g, s⟩ e :=
  caused_of_run_calls (fun rule _ _ h => caused_of_call hrules rule h) hg h

end Rules

/-! ## Whole texts -/

/-- A run on a whole text passes on the failure of the parser, or reports that the parser has
stopped early. -/
theorem Parser.parseWith_eq_failure_iff {p : Parser C α} {text : String} {context : C}
    {e : Failure C} :
    p.parseWith text context = .failure e ↔
      p (.start text context) = .failure e ∨
        ∃ r, p (.start text context) = .success r ∧ r.state.isAtEnd = false ∧
          e = .trailing r.state := by
  rw [parseWith, Outcome.bind_eq_failure_iff]
  refine or_congr Iff.rfl (exists_congr fun r => and_congr Iff.rfl ?_)
  cases r.state.isAtEnd with
  | true => simp
  | false => simp [eq_comm]

/-- A node of the library asks for nothing that could go back, whatever its predicate is. -/
theorem Grammar.isForward_of_isOwn (g : Grammar C R α) (hg : g.IsOwn) : g.IsForward := by
  cases g with
  | custom => exact hg.elim
  | _ => exact trivial

/-- Where a grammar without parsers from outside succeeds, it has kept to the text. -/
theorem Rules.movesForward_of_isOwn {rules : Rules C R} (hrules : rules.Everywhere Grammar.IsOwn)
    {g : Grammar C R α} (hg : g.Everywhere Grammar.IsOwn) (budget : Budget) :
    (rules.run budget g).MovesForward := by
  have hforward : ∀ {β : Type} {g : Grammar C R β}, g.Everywhere Grammar.IsOwn →
      g.Everywhere Grammar.IsForward := fun hg => hg.mono Grammar.isForward_of_isOwn
  exact Rules.movesForward_run (fun rule => hforward (hrules rule)) (hforward hg) budget

/-- Of a grammar without parsers from outside, no run on a state fails with trailing input, and one
that fails with an exhaustion of alternatives carries the state from which a failing choice was
tried. So a run on a whole text reports trailing input exactly if the grammar has succeeded and left
something of the text, and then in the state where the grammar has stopped. -/
theorem failure_kinds_tell_causes {rules : Rules C R} (hrules : rules.Everywhere Grammar.IsOwn)
    {g : Grammar C R α} (hg : g.Everywhere Grammar.IsOwn) (budget : Budget) :
    (∀ s e, rules.run budget g s = .failure e → e.kind ≠ .trailingInput) ∧
    (∀ s e, rules.run budget g s = .failure e → e.kind = .exhaustedAlternatives →
      ∃ (n : Nat) (β : Type) (choice : Fin n → Grammar C R β),
        rules.Visits ⟨g, s⟩ ⟨.any choice, e.state⟩ ∧ rules.Rejects (.any choice) e.state) ∧
    ∀ text context,
      ((∃ e, (rules.run budget g).parseWith text context = .failure e ∧
          e.kind = .trailingInput) ↔
        ∃ r, rules.run budget g (.start text context) = .success r ∧ r.state.rest ≠ "") ∧
      (∀ e, (rules.run budget g).parseWith text context = .failure e → e.kind = .trailingInput →
        ∃ r, rules.run budget g (.start text context) = .success r ∧ r.state.rest ≠ "" ∧
          e.state = r.state) ∧
      ∀ err, (rules.run budget g).runWith text context = .failure err →
        err.kind = .trailingInput →
          ∃ r, rules.run budget g (.start text context) = .success r ∧ r.state.rest ≠ "" ∧
            err.position = r.state.position := by
  have hcaused : ∀ s e, rules.run budget g s = .failure e → rules.Caused ⟨g, s⟩ e :=
    fun s e h => Rules.caused_of_run hrules budget hg h
  have hnever : ∀ s e, rules.run budget g s = .failure e → e.kind ≠ .trailingInput := by
    intro s e h htrailing
    rcases hcaused s e h with hkind | ⟨hkind, -⟩
    · exact FailureKind.noConfusion (hkind.symm.trans htrailing)
    · exact FailureKind.noConfusion (hkind.symm.trans htrailing)
  -- the flag compares lengths, which says something of the rest at boundaries only
  have hatEnd : ∀ text context r, rules.run budget g (.start text context) = .success r →
      (r.state.isAtEnd = true ↔ r.state.rest = "") := by
    intro text context r hr
    have hforward := Rules.movesForward_of_isOwn hrules hg budget
    have hahead := hforward _ (State.wellFormed_start text context) r.state (by rw [hr]; rfl)
    exact State.isAtEnd_iff_rest hahead.wellFormed
  have hstopped : ∀ text context e, (rules.run budget g).parseWith text context = .failure e →
      e.kind = .trailingInput →
        ∃ r, rules.run budget g (.start text context) = .success r ∧ r.state.rest ≠ "" ∧
          e.state = r.state := by
    intro text context e he hkind
    rcases Parser.parseWith_eq_failure_iff.1 he with h | ⟨r, hr, hstop, rfl⟩
    · exact absurd hkind (hnever _ e h)
    · refine ⟨r, hr, fun hrest => ?_, rfl⟩
      rw [(hatEnd text context r hr).2 hrest] at hstop
      cases hstop
  refine ⟨hnever, ?_, fun text context => ⟨⟨?_, ?_⟩, hstopped text context, ?_⟩⟩
  · intro s e h hkind
    rcases hcaused s e h with hmismatch | ⟨-, n, β, choice, hvisits, hrejects⟩
    · exact FailureKind.noConfusion (hmismatch.symm.trans hkind)
    · exact ⟨n, β, choice, hvisits, hrejects⟩
  · rintro ⟨e, he, hkind⟩
    obtain ⟨r, hr, hrest, -⟩ := hstopped text context e he hkind
    exact ⟨r, hr, hrest⟩
  · rintro ⟨r, hr, hrest⟩
    have hstop : r.state.isAtEnd = false := by
      rw [← Bool.not_eq_true, hatEnd text context r hr]
      exact hrest
    exact ⟨.trailing r.state, Parser.parseWith_eq_failure_iff.2 (.inr ⟨r, hr, hstop, rfl⟩), rfl⟩
  · intro err herr hkind
    obtain ⟨e, he, rfl⟩ := Parser.parseWith_of_runWith_failure herr
    obtain ⟨r, hr, hrest, hstate⟩ := hstopped text context e he hkind
    exact ⟨r, hr, hrest, congrArg State.position hstate⟩

/-- The name of one rule. -/
inductive EntryRule : Type → Type where
  | entry : EntryRule String

/-- A rule with a labelled choice. -/
def entryRules : Rules Nat EntryRule where
  body
    | .entry => .label (.or (.literal "é") (.literal "x")) "Expected entry"

/-- Entries behind dashes, which the context counts. -/
def entries : Grammar Nat EntryRule (List String) :=
  .many1
    (.modifyContext (.seqRight (.literal "-") (.delay fun _ => .call .entry)) fun n _ => n + 1)

/-- The labelled failure behind the first dash, and the trailing input before the second one. -/
theorem failure_kinds_tell_causes_entries :
    (∃ e, entryRules.run { rounds := 3, depth := 1 } entries (.start "-y" 0) = .failure e ∧
      e.kind = .exhaustedAlternatives ∧ e.message = "Expected entry" ∧ e.state.index = 1 ∧
      ∃ (n : Nat) (β : Type) (choice : Fin n → Grammar Nat EntryRule β),
        entryRules.Visits ⟨entries, .start "-y" 0⟩ ⟨.any choice, e.state⟩ ∧
          entryRules.Rejects (.any choice) e.state) ∧
    ∃ e, (entryRules.run { rounds := 3, depth := 1 } entries).parseWith "-é-y" 0 = .failure e ∧
      e.kind = .trailingInput ∧ e.state = { text := "-é-y", index := 3, context := 1 } := by
  have hrules : entryRules.Everywhere Grammar.IsOwn := by
    rintro _ ⟨⟩
    refine ⟨trivial, trivial, fun i => ?_⟩
    match i with
    | 0 => exact trivial
    | 1 => exact trivial
  have hentries : entries.Everywhere Grammar.IsOwn :=
    ⟨trivial, trivial, trivial, trivial, trivial, trivial, trivial⟩
  obtain ⟨-, hchoice, hwhole⟩ :=
    failure_kinds_tell_causes hrules hentries { rounds := 3, depth := 1 }
  constructor
  · have hrun : entryRules.run { rounds := 3, depth := 1 } entries (.start "-y" 0) =
        .failure { kind := .exhaustedAlternatives, message := "Expected entry",
                   state := { text := "-y", index := 1, context := 0 } } := rfl
    exact ⟨_, hrun, rfl, rfl, rfl, hchoice _ _ hrun rfl⟩
  · obtain ⟨htrailing, hstopped, -⟩ := hwhole "-é-y" 0
    have hrun : entryRules.run { rounds := 3, depth := 1 } entries (.start "-é-y" 0) =
        .success { state := { text := "-é-y", index := 3, context := 1 }, value := ["é"] } := rfl
    obtain ⟨e, he, hkind⟩ := htrailing.2 ⟨_, hrun, by decide⟩
    obtain ⟨r, hr, -, hstate⟩ := hstopped e he hkind
    obtain rfl := Outcome.success.inj (hrun.symm.trans hr)
    exact ⟨e, he, hkind, hstate⟩

end ContextParser
