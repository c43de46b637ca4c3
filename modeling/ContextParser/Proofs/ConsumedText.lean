import ContextParser.Proofs.Repetition.Rounds

/-!
# The text that is consumed

`withText` slices the text at the two cursors of a success. Where these delimit no part of the text
it yields the empty text without a word, so one would like to know that this never comes into it.
For a parser that keeps the text and goes ahead from boundary to boundary it does not: the slice is
just what is missing between the text before the first cursor and the text after the second one
(`State.Ahead.consumed_append_textTo`), and it is empty only where the cursor has not moved.

The slices of two spans of which one begins where the other ends make up the slice of both together
(`State.Ahead.textTo_append`). The members of a sequence consume such spans, and so do the rounds of
a repetition. So it makes no difference whether the text of the whole is taken, or the text of each
part and then all of them joined (`Parser.withText_lossless`).
-/

set_option autoImplicit false

namespace ContextParser

variable {C α β γ : Type}

namespace Outcome

variable {ε : Type} {o : Outcome ε α}

/-- Functions need to agree only on the answer that there is. -/
theorem map_congr {f g : α → β} (h : ∀ a, o = .success a → f a = g a) : o.map f = o.map g := by
  cases o with
  | success a => rw [map_success, map_success, h a rfl]
  | failure e => rfl
  | fault c => rfl

/-- Continuations need to agree only on the answer that there is. -/
theorem bind_congr {f g : α → Outcome ε β} (h : ∀ a, o = .success a → f a = g a) :
    o.bind f = o.bind g := by
  cases o with
  | success a => exact h a rfl
  | failure e => rfl
  | fault c => rfl

end Outcome

/-! ## Spans -/

namespace State

variable {s t u : State C}

/-- The part of the text between two cursors, or nothing where there is no such part. -/
def textTo (s t : State C) : String :=
  String.ofList ((Text.slice? s.index t.index s.text.toList).getD [])

namespace Ahead

/-- There is a part of the text between the two cursors. It is what the second one has taken off. -/
theorem exists_slice?_eq (hs : s.WellFormed) (h : s.Ahead t) :
    ∃ front, s.remaining = front ++ t.remaining ∧ t.index = s.index + Text.byteLength front ∧
      Text.slice? s.index t.index s.text.toList = some front ∧ (s.textTo t).toList = front := by
  obtain ⟨front, hremaining, hindex⟩ := h.exists_remaining_eq hs
  have hslice : Text.slice? s.index t.index s.text.toList = some front := by
    rw [hindex]
    exact slice?_skip hs hremaining
  refine ⟨front, hremaining, hindex, hslice, ?_⟩
  rw [textTo, hslice, Option.getD_some, String.toList_ofList]

/-- Between two cursors of which one is ahead of the other, slicing yields the text. -/
theorem slice?_eq_textTo (hs : s.WellFormed) (h : s.Ahead t) :
    Text.slice? s.index t.index s.text.toList = some (s.textTo t).toList := by
  obtain ⟨front, -, -, hslice, hfront⟩ := h.exists_slice?_eq hs
  rw [hslice, hfront]

/-- What remains is the text up to the second cursor, and then what remains there. -/
theorem remaining_eq (hs : s.WellFormed) (h : s.Ahead t) :
    s.remaining = (s.textTo t).toList ++ t.remaining := by
  obtain ⟨front, hremaining, -, -, hfront⟩ := h.exists_slice?_eq hs
  rw [hremaining, hfront]

/-- The text is what has been consumed before, what is consumed between, and the rest. -/
theorem consumed_append_textTo (hs : s.WellFormed) (h : s.Ahead t) :
    String.ofList s.consumed ++ s.textTo t ++ t.rest = s.text := by
  apply String.toList_injective
  rw [String.toList_append, String.toList_append, String.toList_ofList, rest, String.toList_ofList,
    List.append_assoc, ← h.remaining_eq hs]
  exact append_of_wellFormed hs

/-- The text between two cursors is empty only where they are the same. -/
theorem textTo_eq_empty_iff (hs : s.WellFormed) (h : s.Ahead t) :
    s.textTo t = "" ↔ t.index = s.index := by
  obtain ⟨front, -, hindex, -, hfront⟩ := h.exists_slice?_eq hs
  have hstill : t.index = s.index ↔ front = [] := by
    rw [← Text.byteLength_eq_zero_iff]
    omega
  rw [hstill, ← hfront, String.toList_eq_nil_iff]

/-- There is no text between a cursor and itself. -/
theorem textTo_self (hs : s.WellFormed) : s.textTo s = "" :=
  ((refl hs).textTo_eq_empty_iff hs).2 rfl

/-- Two spans of which the second begins where the first ends. -/
theorem textTo_append (hs : s.WellFormed) (h : s.Ahead t) (h' : t.Ahead u) :
    s.textTo t ++ t.textTo u = s.textTo u := by
  have hwhole := (h.trans h').remaining_eq hs
  rw [h.remaining_eq hs, h'.remaining_eq h.wellFormed, ← List.append_assoc] at hwhole
  apply String.toList_injective
  rw [String.toList_append]
  exact List.append_cancel_right hwhole

end Ahead

end State

namespace Parser

variable {p : Parser C α} {q q' : Parser C β} {rounds : Nat} {s : State C}

/-- A family goes ahead if all its members do. -/
theorem GoesAhead.all {n : Nat} {τ : Fin n → Type} {ps : (i : Fin n) → Parser C (τ i)}
    (hps : ∀ i, (ps i).GoesAhead) : (Parser.all ps).GoesAhead := by
  rw [← Contract.kept_ahead_iff]
  apply Contract.kept_all
  intro i
  exact Contract.kept_ahead_iff.2 (hps i)

/-- A repetition goes ahead if its parser does. -/
theorem GoesAhead.many (hp : p.GoesAhead) (rounds : Nat) : (Parser.many p rounds).GoesAhead := by
  rw [← Contract.kept_ahead_iff] at hp ⊢
  exact Contract.kept_many hp rounds

/-- To take the text as well moves the cursor no differently. -/
theorem GoesAhead.withText (hp : p.GoesAhead) : (Parser.withText p).GoesAhead := by
  rw [← Contract.kept_ahead_iff] at hp ⊢
  exact Contract.kept_withText hp

/-- The text is that between the state before the run and the state after it. -/
theorem withText_apply (p : Parser C α) (s : State C) :
    withText p s = (p s).map fun r => r.map (·, s.textTo r.state) := rfl

/-! ## Sequences -/

/-- Only where the first parser leads does it matter what the second one is. -/
theorem zipWith_congr {f : α → β → γ} (h : ∀ r, p s = .success r → q r.state = q' r.state) :
    zipWith p q f s = zipWith p q' f s := by
  rw [zipWith_apply, zipWith_apply]
  apply Outcome.bind_congr
  intro r hrun
  rw [h r hrun]

/-- To map the second value first and then to combine is to combine with the mapped value. -/
theorem zipWith_map {δ : Type} (p : Parser C α) (q : Parser C β) (g : β → δ) (f : α → δ → γ) :
    zipWith p (map q g) f = zipWith p q fun a b => f a (g b) := by
  funext s
  simp only [zipWith_apply, map, Outcome.map_map]
  rfl

/-- The text of two parsers in a row is that of the first with that of the second behind it. -/
theorem withText_zipWith (hp : p.GoesAhead) (hq : q.GoesAhead) (hs : s.WellFormed)
    (f : α → β → γ) :
    withText (zipWith p q f) s =
      zipWith (withText p) (withText q) (fun a b => (f a.1 b.1, a.2 ++ b.2)) s := by
  rw [withText_apply, zipWith_apply, zipWith_apply, withText_apply]
  cases hrun : p s with
  | success r =>
    have hahead := hp s r hs hrun
    rw [Outcome.bind_success, Outcome.map_success, Outcome.bind_success, withText_apply,
      Outcome.map_map, Outcome.map_map]
    apply Outcome.map_congr
    intro t ht
    have happend := hahead.textTo_append hs (hq r.state t hahead.wellFormed ht)
    simp only [Success.map, happend]
  | failure e => rfl
  | fault c => rfl

/-- The values of a family, and their texts joined. -/
def joinFamily {n : Nat} {τ : Fin n → Type} (vs : (i : Fin n) → τ i × String) :
    ((i : Fin n) → τ i) × String :=
  (fun i => (vs i).1, String.join (List.ofFn fun i => (vs i).2))

/-- The text of the first member stands before the texts of the others. -/
theorem joinFamily_cases {n : Nat} {τ : Fin (n + 1) → Type} (v : τ 0 × String)
    (vs : (i : Fin n) → τ i.succ × String) :
    joinFamily (fun i => Fin.cases (motive := fun i => τ i × String) v vs i) =
      (fun i => Fin.cases v.1 (joinFamily vs).1 i, v.2 ++ (joinFamily vs).2) := by
  unfold joinFamily
  rw [List.ofFn_succ, String.join_cons]
  congr 1
  funext i
  cases i using Fin.cases with
  | zero => rfl
  | succ i => rfl

/-- The text of a family is the texts of its members joined. -/
theorem withText_all {n : Nat} {τ : Fin n → Type} {ps : (i : Fin n) → Parser C (τ i)}
    (hps : ∀ i, (ps i).GoesAhead) (hs : s.WellFormed) :
    withText (all ps) s = map (all fun i => withText (ps i)) joinFamily s := by
  induction n generalizing s with
  | zero =>
    have hnothing : s.textTo s = "" := State.Ahead.textTo_self hs
    have hvalues (vs : (i : Fin 0) → τ i × String) :
        joinFamily vs = (fun i => (i.elim0 : τ i), "") := by
      unfold joinFamily
      congr 1
      funext i
      exact i.elim0
    simp only [map, all, withText_apply, Outcome.map_success, Success.map, hvalues, hnothing]
  | succ n ih =>
    have hfirst := hps 0
    have hrest : (all fun i => ps i.succ).GoesAhead := .all fun i => hps i.succ
    have htail : ∀ r, withText (ps 0) s = .success r →
        withText (all fun i => ps i.succ) r.state =
          map (all fun i => withText (ps i.succ)) joinFamily r.state := by
      intro r hrun
      exact ih (fun i => hps i.succ) (hfirst.withText s r hs hrun).wellFormed
    rw [all_succ, withText_zipWith hfirst hrest hs, zipWith_congr htail, zipWith_map, all_succ,
      map_zipWith]
    simp only [joinFamily_cases]

/-! ## Repetitions -/

/-- The values of a list, and their texts joined. -/
def joinList (vs : List (α × String)) : List α × String :=
  (vs.map Prod.fst, String.join (vs.map Prod.snd))

/-- The text of the first round stands before the texts of the others. -/
theorem joinList_cons (v : α × String) (vs : List (α × String)) :
    joinList (v :: vs) = (v.1 :: (joinList vs).1, v.2 ++ (joinList vs).2) := by
  unfold joinList
  rw [List.map_cons, List.map_cons, String.join_cons]

/-- The induction is on the budget. A round that moves the cursor is the first part of a sequence;
the one that ends the repetition has consumed nothing. -/
theorem withText_many (hp : p.GoesAhead) (hs : s.WellFormed) (rounds : Nat) :
    withText (many p rounds) s = map (many (withText p) rounds) joinList s := by
  induction rounds generalizing s with
  | zero => rfl
  | succ rounds ih =>
    cases hrun : p s with
    | failure e =>
      have hfails : withText p s = .failure e := by rw [withText_apply, hrun, Outcome.map_failure]
      have hmany : many p (rounds + 1) s = .success { state := s, value := [] } :=
        many_succ_eq_success_iff.2 (.inl ⟨⟨e, hrun⟩, rfl, rfl⟩)
      have hmany' : many (withText p) (rounds + 1) s = .success { state := s, value := [] } :=
        many_succ_eq_success_iff.2 (.inl ⟨⟨e, hfails⟩, rfl, rfl⟩)
      have hnothing : s.textTo s = "" := State.Ahead.textTo_self hs
      rw [withText_apply, hmany, map, hmany']
      simp [Success.map, joinList, hnothing]
    | fault c =>
      have hbreaks : withText p s = .fault c := by rw [withText_apply, hrun, Outcome.map_fault]
      rw [withText_apply, map, many, many, hrun, hbreaks]
      rfl
    | success r =>
      have hrun' : withText p s =
          .success { state := r.state, value := (r.value, s.textTo r.state) } := by
        rw [withText_apply, hrun]
        rfl
      by_cases hstill : r.state.index = s.index
      · have hmany : many p (rounds + 1) s = .success { state := r.state, value := [r.value] } :=
          many_succ_eq_success_iff.2 (.inr (.inl ⟨r.value, hrun, hstill, rfl⟩))
        have hmany' : many (withText p) (rounds + 1) s =
            .success { state := r.state, value := [(r.value, s.textTo r.state)] } :=
          many_succ_eq_success_iff.2 (.inr (.inl ⟨_, hrun', hstill, rfl⟩))
        rw [withText_apply, hmany, map, hmany']
        simp [Success.map, joinList]
      · have hrest : ∀ r, withText p s = .success r →
            withText (many p rounds) r.state =
              map (many (withText p) rounds) joinList r.state := by
          intro r hrun
          exact ih (hp.withText s r hs hrun).wellFormed
        -- the round and the others are a sequence of two, whose texts are joined
        calc withText (many p (rounds + 1)) s
            = withText (zipWith p (many p rounds) fun v vs => v :: vs) s := by
              rw [withText_apply, many_succ_of_moved hrun hstill, ← withText_apply]
          _ = zipWith (withText p) (many (withText p) rounds)
                (fun v vs => joinList (v :: vs)) s := by
              rw [withText_zipWith hp (hp.many rounds) hs, zipWith_congr hrest, zipWith_map]
              simp only [joinList_cons]
          _ = map (many (withText p) (rounds + 1)) joinList s := by
              rw [map, many_succ_of_moved hrun' hstill, ← map_zipWith]
              rfl

/-- For a parser that keeps the text and goes ahead from boundary to boundary, `withText` does not
lose any text. On a success it yields the part of the text between the two cursors: together with
the text before the first cursor and the text after the second one it is the whole text, and it is
empty only where the cursor has not moved. The text that a sequence or a repetition consumes is the
texts that its parts consume, joined in order; and this is so under every budget, for failures and
faults as for successes. -/
theorem withText_lossless (hp : p.GoesAhead) (hs : s.WellFormed) :
    (∀ r, p s = .success r → ∃ c,
      withText p s = .success { state := r.state, value := (r.value, c) } ∧
      String.ofList s.consumed ++ c ++ r.state.rest = s.text ∧
      Text.slice? s.index r.state.index s.text.toList = some c.toList ∧
      (c = "" ↔ r.state.index = s.index)) ∧
    (∀ (n : Nat) (τ : Fin n → Type) (ps : (i : Fin n) → Parser C (τ i)),
      (∀ i, (ps i).GoesAhead) →
        withText (all ps) s = map (all fun i => withText (ps i)) joinFamily s) ∧
    ∀ rounds, withText (many p rounds) s = map (many (withText p) rounds) joinList s := by
  refine ⟨?_, ?_, ?_⟩
  · intro r hrun
    have hahead := hp s r hs hrun
    refine ⟨s.textTo r.state, ?_, hahead.consumed_append_textTo hs, hahead.slice?_eq_textTo hs,
      hahead.textTo_eq_empty_iff hs⟩
    rw [withText_apply, hrun]
    rfl
  · intro n τ ps hps
    exact withText_all hps hs
  · intro rounds
    exact withText_many hp hs rounds

/-- A letter of two bytes with the whitespace behind it, which is not part of the value. -/
def spacedLetter : Parser C String :=
  seqLeft (literal "é") whitespace

/-- A letter with its whitespace goes ahead. -/
theorem goesAhead_spacedLetter : (spacedLetter : Parser C String).GoesAhead := by
  have hkept : (Contract.cursor C (fun _ => True) trivial).Kept spacedLetter := by
    apply Contract.kept_seqLeft (Contract.kept_literal "é")
    exact Contract.kept_when_of_fits _ (fits_takeWhile Text.isWhitespace)
  exact (Contract.movesForward_of_kept hkept).goesAhead

/-- Two letters are consumed behind the first character. The space between them is in the text
though it is in none of the values. -/
theorem withText_lossless_spaces :
    (∃ c, withText spacedLetter { text := "aé é€", index := 1, context := () } =
        .success { state := { text := "aé é€", index := 4, context := () }, value := ("é", c) } ∧
      "a" ++ c ++ "é€" = "aé é€") ∧
    withText (many spacedLetter 3) { text := "aé é€", index := 1, context := () } =
      .success { state := { text := "aé é€", index := 6, context := () },
                 value := (["é", "é"], "é é") } := by
  have hs : ({ text := "aé é€", index := 1, context := () } : State Unit).WellFormed := by decide
  obtain ⟨hslice, -, hmany⟩ := withText_lossless goesAhead_spacedLetter hs
  obtain ⟨c, htext, hwhole, -⟩ := hslice
    { state := { text := "aé é€", index := 4, context := () }, value := "é" } rfl
  refine ⟨⟨c, htext, hwhole⟩, ?_⟩
  rw [hmany 3]
  rfl

end Parser

end ContextParser
