import ContextParser.Proofs.Obstacles
import ContextParser.Proofs.OrderedChoice
import ContextParser.Proofs.Readings

/-!
# Complaints

A reading tells where a parser succeeds. What a parser says where it fails can be told in the same
way, without cursors, by a relation between the context, the characters ahead and the message
(`Parser.Complains`). Both are needed at once: a sequence complains like its first part, or like the
second about the characters that a reading of the first part leaves (`Complains.bind`). So what is
said about a text that a sequence rejects is found by composing the lemmas of this module along the
definition of the sequence, as its readings are.
-/

set_option autoImplicit false

namespace ContextParser

/-- A relation between a context, the characters ahead and a message. -/
abbrev Complaint (C : Type) : Type :=
  C → List Char → String → Prop

namespace Parser

variable {C α β γ : Type}

/-- On well-formed states, a parser fails with the messages of a complaint, each of them where the
complaint is to be made, and nowhere else. -/
structure Complains (p : Parser C α) (F : Complaint C) : Prop where
  failure_iff : ∀ {s : State C}, s.WellFormed → ∀ {message : String},
    (∃ e, p s = .failure e ∧ e.message = message) ↔ F s.context s.remaining message

/-- There is at most one message for a place. -/
theorem Complains.message_unique {p : Parser C α} {F : Complaint C} (hp : Complains p F)
    {s : State C} (hs : s.WellFormed) {message message' : String}
    (h : F s.context s.remaining message) (h' : F s.context s.remaining message') :
    message = message' := by
  obtain ⟨e, he, rfl⟩ := (hp.failure_iff hs).2 h
  obtain ⟨e', he', rfl⟩ := (hp.failure_iff hs).2 h'
  obtain rfl := Outcome.failure.inj (he.symm.trans he')
  rfl

namespace Complains

variable {p : Parser C α} {q : Parser C β} {L : Reading C α} {F G : Complaint C}

/-- A parser has every complaint that is equivalent to one of its own. -/
theorem congr (hp : Complains p F) (h : ∀ c cs message, F c cs message ↔ G c cs message) :
    Complains p G where
  failure_iff := fun hs => (hp.failure_iff hs).trans (h _ _ _)

/-- A parser complains if it has one message for every place where it does not succeed. -/
theorem of_cases
    (h : ∀ s : State C, s.WellFormed →
      (∃ r, p s = .success r) ∧ (∀ message, ¬F s.context s.remaining message) ∨
      ∃ e, p s = .failure e ∧ ∀ message, F s.context s.remaining message ↔ message = e.message) :
    Complains p F where
  failure_iff := by
    intro s hs message
    obtain ⟨⟨r, hrun⟩, hnone⟩ | ⟨e, hrun, hmessage⟩ := h s hs
    · simp [hrun, hnone]
    · simp [hrun, hmessage, eq_comm]

/-! ## Combinators -/

/-- A sequence complains like its first parser, or like the second about what the first leaves. -/
theorem bind {f : α → Parser C β} {G : α → Complaint C} (hread : Reads p L) (hp : Complains p F)
    (hf : ∀ a, Complains (f a) (G a)) :
    Complains (Parser.bind p f) fun c cs message =>
      F c cs message ∨
        ∃ left right a d, cs = left ++ right ∧ L c left right a d ∧ G a d right message where
  failure_iff := by
    intro s hs message
    rw [Parser.bind]
    constructor
    · rintro ⟨e, he, rfl⟩
      rcases Outcome.bind_eq_failure_iff.1 he with hfirst | ⟨r, hfirst, hsecond⟩
      · exact .inl ((hp.failure_iff hs).1 ⟨e, hfirst, rfl⟩)
      · obtain ⟨left, right, a, d, hremaining, hL, rfl⟩ := (hread.success_iff hs).1 hfirst
        have hG := ((hf a).failure_iff (State.wellFormed_after hs hremaining d)).1
          ⟨e, hsecond, rfl⟩
        rw [State.remaining_after hs hremaining] at hG
        exact .inr ⟨left, right, a, d, hremaining, hL, hG⟩
    · rintro (hF | ⟨left, right, a, d, hremaining, hL, hG⟩)
      · obtain ⟨e, hfirst, hmessage⟩ := (hp.failure_iff hs).2 hF
        exact ⟨e, Outcome.bind_eq_failure_iff.2 (.inl hfirst), hmessage⟩
      · have hfirst := (hread.success_iff hs).2 ⟨left, right, a, d, hremaining, hL, rfl⟩
        rw [← State.remaining_after hs hremaining d] at hG
        obtain ⟨e, hsecond, hmessage⟩ :=
          ((hf a).failure_iff (State.wellFormed_after hs hremaining d)).2 hG
        exact ⟨e, Outcome.bind_eq_failure_iff.2 (.inr ⟨_, hfirst, hsecond⟩), hmessage⟩

/-- A mapped value leaves the complaint as it is. -/
theorem map (hp : Complains p F) (f : α → β) : Complains (Parser.map p f) F where
  failure_iff := by
    intro s hs message
    simp only [Parser.map, Outcome.map_eq_failure_iff]
    exact hp.failure_iff hs

/-- A context is replaced only behind a success, so the complaint stays as it is. -/
theorem modifyContext (hp : Complains p F) (f : C → α → C) :
    Complains (Parser.modifyContext p f) F where
  failure_iff := by
    intro s hs message
    simp only [Parser.modifyContext, Outcome.map_eq_failure_iff]
    exact hp.failure_iff hs

/-- A sequence that keeps the right value complains like its parsers. -/
theorem seqRight (hread : Reads p L) (hp : Complains p F) (hq : Complains q G) :
    Complains (Parser.seqRight p q) fun c cs message =>
      F c cs message ∨
        ∃ left right a d, cs = left ++ right ∧ L c left right a d ∧ G d right message := by
  rw [seqRight_eq_bind]
  exact hp.bind hread fun _ => hq

/-- A sequence that keeps the left value complains like its parsers. -/
theorem seqLeft (hread : Reads p L) (hp : Complains p F) (hq : Complains q G) :
    Complains (Parser.seqLeft p q) fun c cs message =>
      F c cs message ∨
        ∃ left right a d, cs = left ++ right ∧ L c left right a d ∧ G d right message := by
  have hmap : Parser.seqLeft p q = Parser.bind p fun a => Parser.map q fun _ => a := by
    simp only [seqLeft_eq_bind, map_eq_bind]
  rw [hmap]
  exact hp.bind hread fun a => hq.map fun _ => a

/-- Where a choice of two fails, both alternatives complain, and it was not left. -/
theorem any_pair_eq_failure {q : Parser C α} (hp : Complains p F) (hq : Complains q G)
    {s : State C} (hs : s.WellFormed) {e : Failure C} (h : any [p, q] s = .failure e) :
    ∃ first second, F s.context s.remaining first ∧ G s.context s.remaining second ∧
      e = .exhausted [first, second] s := by
  obtain ⟨es, hes, rfl⟩ := any_eq_failure_iff.1 h
  obtain ⟨e₁, es₁, hfirst, hes₁, rfl⟩ := List.forall₂_cons_left_iff.1 hes
  obtain ⟨e₂, es₂, hsecond, hes₂, rfl⟩ := List.forall₂_cons_left_iff.1 hes₁
  obtain rfl := List.forall₂_nil_left_iff.1 hes₂
  exact ⟨e₁.message, e₂.message, (hp.failure_iff hs).1 ⟨e₁, hfirst, rfl⟩,
    (hq.failure_iff hs).1 ⟨e₂, hsecond, rfl⟩, rfl⟩

end Complains

/-! ## Parsers of text -/

/-- A condition on the context complains with its message where it does not hold. -/
theorem complains_assertion (holds : C → Prop) [DecidablePred holds] (message : String) :
    Complains (when (fun s => if holds s.context then some 0 else none) message)
      fun c _ said => ¬holds c ∧ said = message := by
  refine .of_cases fun s hs => ?_
  rw [when_assertion (fun s => holds s.context) hs]
  by_cases h : holds s.context
  · rw [if_pos h]
    exact .inl ⟨⟨_, rfl⟩, fun _ hsaid => hsaid.1 h⟩
  · rw [if_neg h]
    exact .inr ⟨_, rfl, fun _ => and_iff_right h⟩

/-- Whitespace never complains. -/
theorem complains_whitespace :
    Complains (whitespace : Parser C Unit) fun _ _ _ => False :=
  .of_cases fun _ hs => .inl ⟨⟨_, whitespace_of_wellFormed hs⟩, fun _ => id⟩

/-- A literal complains where the text does not go on with it, and names it. -/
theorem complains_literal (text : String) :
    Complains (literal text : Parser C String) fun _ cs message =>
      ¬text.toList <+: cs ∧ message = "Expected \"" ++ text ++ "\"" := by
  refine .of_cases fun s hs => ?_
  by_cases hstarts : text.toList <+: s.remaining
  · obtain ⟨back, hback⟩ := hstarts
    exact .inl ⟨⟨_, literal_of_append hs hback.symm⟩, fun _ hsaid => hsaid.1 ⟨back, hback⟩⟩
  · exact .inr ⟨_, literal_of_not_starting hs hstarts, fun _ => and_iff_right hstarts⟩

/-- A keyword is missing, or it goes on behind its text. -/
theorem complains_keyword {text : String} {last : Char} (hlast : text.toList.getLast? = some last) :
    Complains (keyword text : Parser C String) fun _ cs message =>
      (¬text.toList <+: cs ∧ message = "Expected \"" ++ text ++ "\"") ∨
        ∃ next back, cs = text.toList ++ next :: back ∧
          Text.isAlphanumeric last = Text.isAlphanumeric next ∧
          message = "Expected word boundary" := by
  refine .of_cases fun s hs => ?_
  by_cases hstarts : text.toList <+: s.remaining
  case neg =>
    refine .inr ⟨_, keyword_of_not_starting hs hstarts, fun message => ?_⟩
    constructor
    · rintro (⟨-, hmessage⟩ | ⟨next, back, hback, -⟩)
      · exact hmessage
      · exact absurd ⟨next :: back, hback.symm⟩ hstarts
    · exact fun hmessage => .inl ⟨hstarts, hmessage⟩
  obtain ⟨back, hback⟩ := hstarts
  have hboundary := isAtWordBoundary_skip_iff hs hback.symm hlast
  rw [keyword_of_append hs hback.symm]
  by_cases hnext : isAtWordBoundary (s.skip text.toList) = true
  · rw [if_pos hnext]
    refine .inl ⟨⟨_, rfl⟩, ?_⟩
    rintro message (⟨hnot, -⟩ | ⟨next, back', hback', hsame, -⟩)
    · exact hnot ⟨back, hback⟩
    · obtain rfl := List.append_cancel_left (hback.trans hback')
      exact hboundary.1 hnext next rfl hsame
  · rw [if_neg hnext]
    refine .inr ⟨_, rfl, fun message => ?_⟩
    rw [hboundary] at hnext
    constructor
    · rintro (⟨hnot, -⟩ | ⟨_, _, -, -, hmessage⟩)
      · exact absurd ⟨back, hback⟩ hnot
      · exact hmessage
    · intro hmessage
      push Not at hnext
      obtain ⟨next, hhead, hsame⟩ := hnext
      obtain ⟨rest, rfl⟩ := List.head?_eq_some_iff.1 hhead
      exact .inr ⟨next, rest, hback.symm, hsame, hmessage⟩

/-- An identifier complains where no letter is ahead, with a message of its own. -/
theorem complains_identifier :
    Complains (identifier : Parser C String) fun _ cs message =>
      (∀ x ∈ cs.head?, Text.isAlphabetic x = false) ∧ message = "Expected identifier" := by
  refine .of_cases fun s hs => ?_
  rw [identifier, label]
  by_cases hstarts : ∃ x ∈ s.remaining.head?, Text.isAlphabetic x = true
  · obtain ⟨x, hhead, hx⟩ := hstarts
    obtain ⟨xs, hremaining⟩ := List.head?_eq_some_iff.1 hhead
    rw [charSpan_of_cons hs hremaining hx]
    refine .inl ⟨⟨_, rfl⟩, ?_⟩
    rintro message ⟨hnone, -⟩
    exact absurd hx (by simp [hnone x hhead])
  · rw [charSpan_of_spanLength hs (spanLength_eq_none_iff.2 hstarts)]
    push Not at hstarts
    simp only [Bool.not_eq_true] at hstarts
    exact .inr ⟨_, rfl, fun _ => and_iff_right hstarts⟩

/-- Spaces behind a parser add nothing to what it complains of. -/
theorem complains_spaces {p : Parser C α} {L : Reading C α} {F : Complaint C} (hread : Reads p L)
    (hp : Complains p F) : Complains (spaces p) F := by
  refine (hp.seqLeft hread complains_whitespace).congr fun c cs message => ?_
  simp only [and_false, exists_false, or_false]

end Parser

end ContextParser
