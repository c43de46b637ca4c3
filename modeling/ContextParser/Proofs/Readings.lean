import ContextParser.Parser.Whole
import ContextParser.Proofs.Cursor
import ContextParser.Proofs.Sequencing

/-!
# Readings

What a parser makes of a text can be told without cursors and failures, by a relation on characters:
with a certain context it consumes certain characters where certain others follow, which makes a
value and another context. A parser reads such a relation (`Parser.Reads`) if it succeeds exactly
where the relation holds, and fails everywhere else; it never ends in a fault.

The readings of sequences are the sequences of readings, so what a parser accepts is found by
composing the lemmas of this module along its definition. Parsers of text look beyond what they
consume: whitespace and names stop where their class of characters ends, and a keyword looks at the
character behind it. In a reading this is a condition on the characters that follow.
-/

set_option autoImplicit false

namespace ContextParser

/-- The characters up to where a class of characters ends. -/
def Text.IsRun (accepts : Char → Bool) (front back : List Char) : Prop :=
  (∀ c ∈ front, accepts c = true) ∧ ∀ c ∈ back.head?, accepts c = false

/-- A text falls into a run and what follows it where the class of characters first ends. -/
theorem Text.isRun_iff {accepts : Char → Bool} {front back : List Char} :
    IsRun accepts front back ↔ (front ++ back).takeWhile accepts = front := by
  induction front with
  | nil =>
    cases back with
    | nil => simp [IsRun]
    | cons c cs => by_cases hc : accepts c = true <;> simp [IsRun, hc]
  | cons c cs ih =>
    have hcons : IsRun accepts (c :: cs) back ↔ accepts c = true ∧ IsRun accepts cs back := by
      simp [IsRun, and_assoc]
    rw [hcons, ih, List.cons_append, List.takeWhile_cons]
    by_cases hc : accepts c = true
    · simp [hc]
    · simp [hc]

/-- Where a run of characters ends is not a matter of choice. -/
theorem Text.isRun_unique {accepts : Char → Bool} {front back front' back' : List Char}
    (h : IsRun accepts front back) (h' : IsRun accepts front' back')
    (hsame : front ++ back = front' ++ back') : front = front' := by
  rw [← isRun_iff.1 h, hsame, isRun_iff.1 h']

/-- The characters of a class that a text starts with are a run. -/
theorem Text.isRun_takeWhile (accepts : Char → Bool) (cs : List Char) :
    IsRun accepts (cs.takeWhile accepts) (cs.dropWhile accepts) := by
  rw [isRun_iff, List.takeWhile_append_dropWhile]

namespace State

variable {C : Type} {s : State C} {front back : List Char}

/-- The state after some characters have been consumed and the context has been replaced. -/
def after (s : State C) (front : List Char) (context : C) : State C :=
  { text := s.text, index := s.index + Text.byteLength front, context }

/-- Characters consumed in two steps are consumed in one, with the context of the second. -/
theorem after_after (s : State C) (front middle : List Char) (c d : C) :
    (s.after front c).after middle d = s.after (front ++ middle) d := by
  simp [after, Nat.add_assoc]

/-- Behind characters that are there the state is well-formed. -/
theorem wellFormed_after (hs : s.WellFormed) (h : s.remaining = front ++ back) (context : C) :
    (s.after front context).WellFormed :=
  wellFormed_withContext (wellFormed_skip hs h) context

/-- What remains behind some characters is the text that follows them. -/
theorem remaining_after (hs : s.WellFormed) (h : s.remaining = front ++ back) (context : C) :
    (s.after front context).remaining = back :=
  remaining_skip hs h

end State

/-- A relation between a context, the characters that are consumed, those that follow, a value and
another context. -/
abbrev Reading (C α : Type) : Type :=
  C → List Char → List Char → α → C → Prop

namespace Parser

variable {C α β γ : Type}

/-- A choice of two runs the second only if the first fails, and reports the messages of both if
that one fails as well. -/
theorem any_pair_apply (p q : Parser C α) (s : State C) :
    any [p, q] s =
      match p s with
      | .success r => .success r
      | .failure e => (q s).mapFailure fun e' => .exhausted [e.message, e'.message] s
      | .fault c => .fault c := by
  rw [any, firstSuccess, firstSuccess, firstSuccess]
  cases p s with
  | success r => rfl
  | failure e => cases q s <;> rfl
  | fault c => rfl

/-- On well-formed states, a parser succeeds where there is something to read, with what there is to
read, and fails everywhere else. -/
structure Reads (p : Parser C α) (L : Reading C α) : Prop where
  success_iff : ∀ {s : State C}, s.WellFormed → ∀ {r : Success C α}, p s = .success r ↔
    ∃ front back value context, s.remaining = front ++ back ∧
      L s.context front back value context ∧ r = { state := s.after front context, value }
  ne_fault : ∀ {s : State C}, s.WellFormed → ∀ c, p s ≠ .fault c

namespace Reads

variable {p : Parser C α} {q : Parser C β} {L : Reading C α} {M : Reading C β}

/-- A parser has every reading that is equivalent to one of its own. -/
theorem congr {L' : Reading C α} (hp : Reads p L)
    (h : ∀ c front back value d, L c front back value d ↔ L' c front back value d) :
    Reads p L' := by
  have hsame : L = L' := by
    funext c front back value d
    exact propext (h c front back value d)
  rwa [← hsame]

/-- Where there is nothing to read, the parser fails. -/
theorem failure_iff (hp : Reads p L) {s : State C} (hs : s.WellFormed) :
    (∃ e, p s = .failure e) ↔ ∀ front back value context, s.remaining = front ++ back →
      ¬L s.context front back value context := by
  constructor
  · rintro ⟨e, he⟩ front back value context hremaining hL
    have hsuccess := (hp.success_iff hs).2 ⟨front, back, value, context, hremaining, hL, rfl⟩
    simp [he] at hsuccess
  · intro hnone
    cases hrun : p s with
    | success r =>
      obtain ⟨front, back, value, context, hremaining, hL, -⟩ := (hp.success_iff hs).1 hrun
      exact absurd hL (hnone front back value context hremaining)
    | failure e => exact ⟨e, rfl⟩
    | fault c => exact absurd hrun (hp.ne_fault hs c)

/-! ## Combinators -/

/-- A parser chosen by a value reads what follows the characters of that value, in the context that
has been left there. -/
theorem bind {f : α → Parser C β} {M : α → Reading C β} (hp : Reads p L)
    (hf : ∀ a, Reads (f a) (M a)) :
    Reads (Parser.bind p f) fun c front back value d =>
      ∃ left right a e, front = left ++ right ∧ L c left (right ++ back) a e ∧
        M a e right back value d where
  success_iff := by
    intro s hs r
    rw [Parser.bind]
    constructor
    · intro h
      cases hfirst : p s with
      | success t =>
        obtain ⟨left, rest, a, e, hremaining, hL, rfl⟩ := (hp.success_iff hs).1 hfirst
        rw [hfirst, Outcome.bind_success] at h
        -- the second parser is started where the first has led, in the context that is there
        have hs' := State.wellFormed_after hs hremaining e
        obtain ⟨right, back, value, d, hrest, hM, rfl⟩ := ((hf a).success_iff hs').1 h
        rw [State.remaining_after hs hremaining] at hrest
        subst hrest
        refine ⟨left ++ right, back, value, d, ?_, ⟨left, right, a, e, rfl, hL, hM⟩, ?_⟩
        · rw [hremaining, List.append_assoc]
        · rw [State.after_after]
      | failure e => simp [hfirst] at h
      | fault c => simp [hfirst] at h
    · rintro ⟨front, back, value, d, hremaining, ⟨left, right, a, e, rfl, hL, hM⟩, rfl⟩
      rw [List.append_assoc] at hremaining
      have hs' := State.wellFormed_after hs hremaining e
      have hfirst := (hp.success_iff hs).2 ⟨left, right ++ back, a, e, hremaining, hL, rfl⟩
      rw [hfirst, Outcome.bind_success, (hf a).success_iff hs']
      refine ⟨right, back, value, d, State.remaining_after hs hremaining e, hM, ?_⟩
      rw [State.after_after]
  ne_fault := by
    intro s hs c
    rw [Parser.bind]
    cases hfirst : p s with
    | success t =>
      obtain ⟨left, rest, a, e, hremaining, hL, rfl⟩ := (hp.success_iff hs).1 hfirst
      exact (hf a).ne_fault (State.wellFormed_after hs hremaining e) c
    | failure e => simp
    | fault c' => exact absurd hfirst (hp.ne_fault hs c')

/-- Yield a value, consume nothing, and replace the context. -/
theorem succeed_withContext (value : α) (f : C → C) :
    Reads (fun s : State C => Parser.succeed value (s.withContext (f s.context)))
      fun c front _ v d => front = [] ∧ v = value ∧ d = f c where
  success_iff := by
    intro s hs r
    constructor
    · intro h
      obtain rfl := Outcome.success.inj h
      exact ⟨[], s.remaining, value, f s.context, rfl, ⟨rfl, rfl, rfl⟩, rfl⟩
    · rintro ⟨front, back, v, d, -, ⟨rfl, rfl, rfl⟩, rfl⟩
      rfl
  ne_fault := by simp [Parser.succeed]

/-- A mapped value is read from the same characters. -/
theorem map (hp : Reads p L) (f : α → β) :
    Reads (Parser.map p f) fun c front back value d => ∃ a, value = f a ∧ L c front back a d := by
  rw [map_eq_bind]
  refine (hp.bind fun a => succeed_withContext (f a) id).congr ?_
  intro c front back value d
  constructor
  · rintro ⟨left, right, a, e, rfl, hL, rfl, rfl, rfl⟩
    exact ⟨a, rfl, by simpa using hL⟩
  · rintro ⟨a, rfl, hL⟩
    exact ⟨front, [], a, d, by simp, hL, rfl, rfl, rfl⟩

/-- A context is replaced behind the characters, in view of their value. -/
theorem modifyContext (hp : Reads p L) (f : C → α → C) :
    Reads (Parser.modifyContext p f) fun c front back value d =>
      ∃ e, L c front back value e ∧ d = f e value := by
  rw [modifyContext_eq_bind]
  refine (hp.bind fun a => succeed_withContext a (f · a)).congr ?_
  intro c front back value d
  constructor
  · rintro ⟨left, right, a, e, rfl, hL, rfl, rfl, rfl⟩
    exact ⟨e, by simpa using hL, rfl⟩
  · rintro ⟨e, hL, rfl⟩
    exact ⟨front, [], value, e, by simp, hL, rfl, rfl, rfl⟩

/-- Two parsers in a row read two adjacent parts of the text, each with its own value. -/
theorem zipWith (hp : Reads p L) (hq : Reads q M) (f : α → β → γ) :
    Reads (Parser.zipWith p q f) fun c front back value d =>
      ∃ left right a b e, front = left ++ right ∧ L c left (right ++ back) a e ∧
        M e right back b d ∧ value = f a b := by
  have hzip : Parser.zipWith p q f = Parser.bind p fun a => Parser.map q (f a) := by
    simp only [zipWith_eq_bind, map_eq_bind]
  rw [hzip]
  refine (hp.bind fun a => hq.map (f a)).congr ?_
  intro c front back value d
  constructor
  · rintro ⟨left, right, a, e, hfront, hL, b, hvalue, hM⟩
    exact ⟨left, right, a, b, e, hfront, hL, hM, hvalue⟩
  · rintro ⟨left, right, a, b, e, hfront, hL, hM, hvalue⟩
    exact ⟨left, right, a, e, hfront, hL, b, hvalue, hM⟩

/-- Of two adjacent parts the value of the left one is kept. -/
theorem seqLeft (hp : Reads p L) (hq : Reads q M) :
    Reads (Parser.seqLeft p q) fun c front back value d =>
      ∃ left right b e, front = left ++ right ∧ L c left (right ++ back) value e ∧
        M e right back b d := by
  rw [seqLeft_eq_zipWith]
  refine (hp.zipWith hq fun a _ => a).congr ?_
  intro c front back value d
  constructor
  · rintro ⟨left, right, a, b, e, hfront, hL, hM, rfl⟩
    exact ⟨left, right, b, e, hfront, hL, hM⟩
  · rintro ⟨left, right, b, e, hfront, hL, hM⟩
    exact ⟨left, right, value, b, e, hfront, hL, hM, rfl⟩

/-- Of two adjacent parts the value of the right one is kept. -/
theorem seqRight (hp : Reads p L) (hq : Reads q M) :
    Reads (Parser.seqRight p q) fun c front back value d =>
      ∃ left right a e, front = left ++ right ∧ L c left (right ++ back) a e ∧
        M e right back value d := by
  rw [seqRight_eq_bind]
  exact hp.bind fun _ => hq

/-- A choice of two reads what either reads, if no text is there for both to read. -/
theorem any_pair {q : Parser C α} {M : Reading C α} (hp : Reads p L) (hq : Reads q M)
    (hdisjoint : ∀ {c front back value d front' back' value' d'},
      L c front back value d → M c front' back' value' d' → front ++ back ≠ front' ++ back') :
    Reads (any [p, q]) fun c front back value d =>
      L c front back value d ∨ M c front back value d where
  success_iff := by
    intro s hs r
    rw [any_pair_apply]
    cases hfirst : p s with
    | success t =>
      -- what the second might read here is excluded, since the first has read something
      have hp' := hp.success_iff hs (r := r)
      rw [hfirst] at hp'
      rw [hp']
      obtain ⟨front, back, value, d, hremaining, hL, -⟩ := (hp.success_iff hs).1 hfirst
      constructor
      · rintro ⟨front', back', value', d', hremaining', hL', hr⟩
        exact ⟨front', back', value', d', hremaining', .inl hL', hr⟩
      · rintro ⟨front', back', value', d', hremaining', hL' | hM, hr⟩
        · exact ⟨front', back', value', d', hremaining', hL', hr⟩
        · exact absurd (hremaining.symm.trans hremaining') (hdisjoint hL hM)
    | failure e =>
      have hnone := (hp.failure_iff hs).1 ⟨e, hfirst⟩
      have hsecond : (q s).mapFailure (fun e' => Failure.exhausted [e.message, e'.message] s) =
          .success r ↔ q s = .success r := by
        cases q s <;> simp
      rw [hsecond, hq.success_iff hs]
      constructor
      · rintro ⟨front, back, value, d, hremaining, hM, hr⟩
        exact ⟨front, back, value, d, hremaining, .inr hM, hr⟩
      · rintro ⟨front, back, value, d, hremaining, hL | hM, hr⟩
        · exact absurd hL (hnone front back value d hremaining)
        · exact ⟨front, back, value, d, hremaining, hM, hr⟩
    | fault c => exact absurd hfirst (hp.ne_fault hs c)
  ne_fault := by
    intro s hs c
    rw [any_pair_apply]
    cases hfirst : p s with
    | success t => simp
    | failure e =>
      have hsecond := hq.ne_fault hs c
      cases hrun : q s with
      | success t => simp
      | failure e' => simp
      | fault c' =>
        rw [hrun] at hsecond
        simpa using hsecond
    | fault c' => exact absurd hfirst (hp.ne_fault hs c')

/-! ## Whole texts -/

/-- A run on a whole text succeeds where all of the text can be read. -/
theorem parseWith_success_iff (hp : Reads p L) {text : String} {context : C} {r : Success C α} :
    p.parseWith text context = .success r ↔
      ∃ value d, L context text.toList [] value d ∧
        r = { state := { text, index := Text.byteLength text.toList, context := d }, value } := by
  have hs : (State.start text context).WellFormed := State.wellFormed_start text context
  have hremaining : (State.start text context).remaining = text.toList :=
    State.remaining_start text context
  constructor
  · intro h
    rw [parseWith] at h
    cases hrun : p (.start text context) with
    | success t =>
      obtain ⟨front, back, value, d, hsplit, hL, rfl⟩ := (hp.success_iff hs).1 hrun
      rw [hremaining] at hsplit
      rw [hrun, Outcome.bind_success] at h
      split at h
      · next hend =>
        obtain rfl := Outcome.success.inj h
        -- the end is an index, and nothing is left there because every character takes a byte
        have hlength : 0 + Text.byteLength front = Text.byteLength text.toList := by
          simpa [State.isAtEnd, State.after, State.start] using hend
        rw [hsplit, Text.byteLength_append] at hlength
        have hback : back = [] := Text.byteLength_eq_zero_iff.1 (by omega)
        subst hback
        rw [List.append_nil] at hsplit
        subst hsplit
        refine ⟨value, d, hL, ?_⟩
        simp [State.after, State.start]
      · simp at h
    | failure e => simp [hrun] at h
    | fault c => simp [hrun] at h
  · rintro ⟨value, d, hL, rfl⟩
    have hrun := (hp.success_iff hs).2
      ⟨text.toList, [], value, d, by rw [hremaining, List.append_nil], hL, rfl⟩
    rw [parseWith, hrun, Outcome.bind_success]
    simp [State.isAtEnd, State.after, State.start]

/-- No text and no initial context make a parser with a reading fault. -/
theorem parseWith_ne_fault (hp : Reads p L) (text : String) (context : C) (c : Fault) :
    p.parseWith text context ≠ .fault c := by
  rw [parseWith]
  cases hrun : p (.start text context) with
  | success r =>
    rw [Outcome.bind_success]
    split <;> simp
  | failure e => simp
  | fault c' => exact absurd hrun (hp.ne_fault (State.wellFormed_start text context) c')

/-- All other whole texts are rejected. -/
theorem parseWith_failure_iff (hp : Reads p L) {text : String} {context : C} :
    (∃ e, p.parseWith text context = .failure e) ↔
      ¬∃ r, p.parseWith text context = .success r := by
  cases hrun : p.parseWith text context with
  | success r => simp
  | failure e => simp
  | fault c => exact absurd hrun (hp.parseWith_ne_fault text context c)

end Reads

/-! ## Parsers of text -/

/-- A condition on the context. -/
theorem reads_assertion (holds : C → Prop) [DecidablePred holds] (message : String) :
    Reads (when (fun s => if holds s.context then some 0 else none) message)
      fun c front _ _ d => front = [] ∧ holds c ∧ d = c where
  success_iff := by
    intro s hs r
    rw [when_assertion (fun s => holds s.context) hs]
    by_cases h : holds s.context
    · rw [if_pos h]
      constructor
      · intro hr
        obtain rfl := Outcome.success.inj hr
        exact ⟨[], s.remaining, (), s.context, rfl, ⟨rfl, h, rfl⟩, rfl⟩
      · rintro ⟨front, back, value, d, -, ⟨rfl, -, rfl⟩, rfl⟩
        rfl
    · rw [if_neg h]
      simp [h]
  ne_fault := by
    intro s hs c
    rw [when_assertion (fun s => holds s.context) hs]
    split <;> simp

/-- A parser that leaves the context alone reads a relation on characters if it never has a choice,
consumes what the relation says where there is something to consume, and fails elsewhere. -/
theorem reads_of_cases {p : Parser C α} {K : List Char → List Char → α → Prop}
    (hunique : ∀ {front back value front' back' value'}, K front back value →
      K front' back' value' → front ++ back = front' ++ back' → front = front' ∧ value = value')
    (hcases : ∀ s : State C, s.WellFormed →
      (∃ front back value, s.remaining = front ++ back ∧ K front back value ∧
        p s = .success { state := s.skip front, value }) ∨
      (∃ e, p s = .failure e) ∧ ∀ front back value, s.remaining = front ++ back →
        ¬K front back value) :
    Reads p fun c front back value d => K front back value ∧ d = c where
  success_iff := by
    intro s hs r
    obtain ⟨front, back, value, hremaining, hK, hrun⟩ | ⟨⟨e, hrun⟩, hnone⟩ := hcases s hs
    · rw [hrun]
      constructor
      · intro h
        obtain rfl := Outcome.success.inj h
        exact ⟨front, back, value, s.context, hremaining, ⟨hK, rfl⟩, rfl⟩
      · rintro ⟨front', back', value', d, hremaining', ⟨hK', rfl⟩, rfl⟩
        obtain ⟨rfl, rfl⟩ := hunique hK hK' (hremaining.symm.trans hremaining')
        rfl
    · rw [hrun]
      constructor
      · intro h
        simp at h
      · rintro ⟨front, back, value, d, hremaining, ⟨hK, -⟩, -⟩
        exact absurd hK (hnone front back value hremaining)
  ne_fault := by
    intro s hs c
    obtain ⟨front, back, value, -, -, hrun⟩ | ⟨⟨e, hrun⟩, -⟩ := hcases s hs
    · simp [hrun]
    · simp [hrun]

/-- Whitespace is read as far as it goes, and leaves the context as it is. -/
theorem reads_whitespace :
    Reads (whitespace : Parser C Unit) fun c front back _ d =>
      Text.IsRun Text.isWhitespace front back ∧ d = c := by
  refine reads_of_cases (K := fun front back _ => Text.IsRun Text.isWhitespace front back) ?_ ?_
  · intro front back _ front' back' _ hrun hrun' hsame
    exact ⟨Text.isRun_unique hrun hrun' hsame, rfl⟩
  · intro s hs
    exact .inl ⟨_, _, (), List.takeWhile_append_dropWhile.symm, Text.isRun_takeWhile _ _,
      whitespace_of_wellFormed hs⟩

/-- A literal reads its own characters and nothing else, whatever follows. -/
theorem reads_literal (text : String) :
    Reads (literal text : Parser C String) fun c front _ value d =>
      (front = text.toList ∧ value = text) ∧ d = c := by
  refine reads_of_cases (K := fun front _ value => front = text.toList ∧ value = text) ?_ ?_
  · rintro front back value front' back' value' ⟨rfl, rfl⟩ ⟨rfl, rfl⟩ -
    exact ⟨rfl, rfl⟩
  · intro s hs
    by_cases hstarts : text.toList <+: s.remaining
    · obtain ⟨back, hback⟩ := hstarts
      exact .inl ⟨_, back, text, hback.symm, ⟨rfl, rfl⟩, literal_of_append hs hback.symm⟩
    · refine .inr ⟨⟨_, literal_of_not_starting hs hstarts⟩, ?_⟩
      rintro front back value hremaining ⟨rfl, -⟩
      exact hstarts ⟨back, hremaining.symm⟩

/-- A keyword is followed by the end of the text, or by a character that is a letter or digit
exactly if the last one of the keyword is not. -/
theorem reads_keyword {text : String} {last : Char} (hlast : text.toList.getLast? = some last) :
    Reads (keyword text : Parser C String) fun c front back value d =>
      ((front = text.toList ∧ value = text) ∧
        ∀ next ∈ back.head?, Text.isAlphanumeric last ≠ Text.isAlphanumeric next) ∧ d = c := by
  refine reads_of_cases (K := fun front back value => (front = text.toList ∧ value = text) ∧
    ∀ next ∈ back.head?, Text.isAlphanumeric last ≠ Text.isAlphanumeric next) ?_ ?_
  · rintro front back value front' back' value' ⟨⟨rfl, rfl⟩, -⟩ ⟨⟨rfl, rfl⟩, -⟩ -
    exact ⟨rfl, rfl⟩
  · intro s hs
    by_cases hstarts : text.toList <+: s.remaining
    · obtain ⟨back, hback⟩ := hstarts
      have hboundary := isAtWordBoundary_skip_iff hs hback.symm hlast
      rw [keyword_of_append hs hback.symm]
      by_cases hnext : isAtWordBoundary (s.skip text.toList) = true
      · rw [if_pos hnext]
        exact .inl ⟨_, back, text, hback.symm, ⟨⟨rfl, rfl⟩, hboundary.1 hnext⟩, rfl⟩
      · rw [if_neg hnext]
        refine .inr ⟨⟨_, rfl⟩, ?_⟩
        rintro front back' value hremaining ⟨⟨rfl, -⟩, hback'⟩
        obtain rfl := List.append_cancel_left (hback.trans hremaining)
        exact hnext (hboundary.2 hback')
    · rw [keyword_of_not_starting hs hstarts]
      refine .inr ⟨⟨_, rfl⟩, ?_⟩
      rintro front back value hremaining ⟨⟨rfl, -⟩, -⟩
      exact hstarts ⟨back, hremaining.symm⟩

/-- A span reads a character that may come first and then as many as may follow it. -/
theorem reads_charSpan (initial following : Char → Bool) :
    Reads (charSpan initial following : Parser C String) fun c front back value d =>
      (value = String.ofList front ∧ ∃ x xs, front = x :: xs ∧ initial x = true ∧
        Text.IsRun following xs back) ∧ d = c := by
  refine reads_of_cases (K := fun front back value => value = String.ofList front ∧
    ∃ x xs, front = x :: xs ∧ initial x = true ∧ Text.IsRun following xs back) ?_ ?_
  · rintro front back value front' back' value' ⟨rfl, x, xs, rfl, -, hrun⟩
      ⟨rfl, x', xs', rfl, -, hrun'⟩ hsame
    obtain ⟨rfl, htail⟩ := List.cons.inj hsame
    obtain rfl := Text.isRun_unique hrun hrun' htail
    exact ⟨rfl, rfl⟩
  · intro s hs
    by_cases hstarts : ∃ x ∈ s.remaining.head?, initial x = true
    · obtain ⟨x, hhead, hx⟩ := hstarts
      obtain ⟨xs, hremaining⟩ := List.head?_eq_some_iff.1 hhead
      exact .inl ⟨x :: xs.takeWhile following, xs.dropWhile following, _,
        remaining_eq_span following hremaining, ⟨rfl, x, _, rfl, hx, Text.isRun_takeWhile _ _⟩,
        charSpan_of_cons hs hremaining hx⟩
    · refine .inr ⟨⟨_, charSpan_of_spanLength hs (spanLength_eq_none_iff.2 hstarts)⟩, ?_⟩
      rintro front back value hremaining ⟨-, x, xs, rfl, hx, -⟩
      apply hstarts
      rw [hremaining]
      exact ⟨x, rfl, hx⟩

/-- Another message for failures leaves the reading as it is. -/
theorem reads_label {p : Parser C α} {L : Reading C α} (hp : Reads p L) (message : String) :
    Reads (label p message) L where
  success_iff := by
    intro s hs r
    rw [← hp.success_iff hs, label]
    cases p s <;> simp
  ne_fault := by
    intro s hs c
    have h := hp.ne_fault hs c
    rw [label]
    cases hrun : p s with
    | success r => simp
    | failure e => simp
    | fault c' =>
      rw [hrun] at h
      exact h

/-- An identifier is a letter and the letters and digits behind it, as far as they go. -/
theorem reads_identifier :
    Reads (identifier : Parser C String) fun c front back value d =>
      (value = String.ofList front ∧ ∃ x xs, front = x :: xs ∧ Text.isAlphabetic x = true ∧
        Text.IsRun Text.isAlphanumeric xs back) ∧ d = c :=
  reads_label (reads_charSpan _ _) _

/-- Spaces behind a parser are read to their end, and the value is that of the parser. -/
theorem reads_spaces {p : Parser C α} {L : Reading C α} (hp : Reads p L) :
    Reads (spaces p) fun c front back value d =>
      ∃ left right, front = left ++ right ∧ L c left (right ++ back) value d ∧
        Text.IsRun Text.isWhitespace right back := by
  refine (hp.seqLeft reads_whitespace).congr ?_
  intro c front back value d
  constructor
  · rintro ⟨left, right, -, e, hfront, hL, hrun, rfl⟩
    exact ⟨left, right, hfront, hL, hrun⟩
  · rintro ⟨left, right, hfront, hL, hrun⟩
    exact ⟨left, right, (), d, hfront, hL, hrun, rfl⟩

end Parser

end ContextParser
