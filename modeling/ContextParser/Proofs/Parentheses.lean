import ContextParser.Proofs.Endings
import ContextParser.Proofs.Readings
import ContextParser.Proofs.WholeTexts

/-!
# Nested parentheses

Two rules that refer to each other take parentheses around parentheses, and count how deep they go.
The outer rule never fails: where there is no pair of parentheses it takes nothing and counts zero.
So where a closing parenthesis is missing, the pair that lacks it is given up as a whole, with all
the pairs inside it, and so are the pairs around it.

The induction is on the opening parentheses that come next. It has to speak of both ends at once: if
the closing ones are enough, what remains behind the inner pairs tells whether there is one left for
the outer pair, and if they are not, the next character is another opening one
(`Parentheses.run_depth`).
-/

set_option autoImplicit false

namespace ContextParser

namespace Parentheses

/-- The names of the two rules. -/
inductive Rule : Type → Type where
  | depth : Rule Nat
  | parens : Rule Nat

variable {C : Type}

/-- A pair of parentheses, or nothing. The value is how deep pairs are nested. -/
def depth : Grammar C Rule Nat :=
  .or (.call .parens) (.map (.literal "") fun _ => 0)

/-- A pair of parentheses around others. -/
def parens : Grammar C Rule Nat :=
  .map (.between (.call .depth) (.literal "(") (.literal ")")) (· + 1)

/-- What the names of the two rules stand for. -/
def rules : Rules C Rule where
  body
    | .depth => depth
    | .parens => parens

/-- The characters start with exactly `k` opening parentheses, and then exactly `m` closing ones,
before others. -/
def Opens (k m : Nat) (cs others : List Char) : Prop :=
  ∃ rest, cs = List.replicate k '(' ++ rest ∧ (∀ c ∈ rest.head?, c ≠ '(') ∧
    rest = List.replicate m ')' ++ others ∧ ∀ c ∈ others.head?, c ≠ ')'

/-! ## How texts start -/

/-- All leading copies of a character are taken off. -/
theorem exists_eq_replicate_append (c : Char) (cs : List Char) :
    ∃ n rest, cs = List.replicate n c ++ rest ∧ ∀ d ∈ rest.head?, d ≠ c := by
  induction cs with
  | nil => exact ⟨0, [], rfl, by simp⟩
  | cons d ds ih =>
    by_cases hd : d = c
    · obtain ⟨n, rest, rfl, hrest⟩ := ih
      exact ⟨n + 1, rest, by rw [hd, List.replicate_succ, List.cons_append], hrest⟩
    · exact ⟨0, d :: ds, rfl, by simpa using hd⟩

/-- Every text starts with some number of opening parentheses, be it none, and then of closing
ones. -/
theorem exists_opens (cs : List Char) : ∃ k m others, Opens k m cs others := by
  obtain ⟨k, rest, hcs, hrest⟩ := exists_eq_replicate_append '(' cs
  obtain ⟨m, others, hclosing, hothers⟩ := exists_eq_replicate_append ')' rest
  exact ⟨k, m, others, rest, hcs, hrest, hclosing, hothers⟩

/-- A text of nothing but `n` parentheses of either kind starts with just these. -/
theorem opens_balanced (n : Nat) :
    Opens n n (List.replicate n '(' ++ List.replicate n ')') [] := by
  refine ⟨List.replicate n ')', rfl, ?_, (List.append_nil _).symm, by simp⟩
  cases n <;> simp [List.replicate_succ]

/-- The parentheses that a text starts with may be written out in front of the others. -/
theorem Opens.eq_append {k m : Nat} {cs others : List Char} (h : Opens k m cs others) :
    cs = List.replicate k '(' ++ (List.replicate m ')' ++ others) := by
  obtain ⟨rest, rfl, -, rfl, -⟩ := h
  rfl

/-- There are no more opening parentheses than characters. -/
theorem Opens.le_length {k m : Nat} {cs others : List Char} (h : Opens k m cs others) :
    k ≤ cs.length := by
  rw [h.eq_append, List.length_append, List.length_replicate]
  exact Nat.le_add_right _ _

/-- Each parenthesis takes up one byte. -/
theorem byteLength_balanced (n : Nat) :
    Text.byteLength (List.replicate n '(' ++ List.replicate n ')') = 2 * n := by
  have hcopies : ∀ c : Char, c.utf8Size = 1 → Text.byteLength (List.replicate n c) = n := by
    intro c hc
    induction n with
    | zero => rfl
    | succ n ih => rw [List.replicate_succ, Text.byteLength_cons, ih, hc, Nat.add_comm]
  rw [Text.byteLength_append, hcopies '(' rfl, hcopies ')' rfl]
  omega

/-! ## One pair -/

variable {s t : State C} {rounds levels : Nat}

/-- A pair is the parenthesis in front, what the outer rule makes of the inside, and the one
behind. -/
theorem run_parens (s : State C) :
    rules.run { rounds, depth := levels } parens s =
      (Parser.literal "(" s).bind fun r =>
        (rules.run { rounds, depth := levels } (.call .depth) r.state).bind fun t =>
          (Parser.literal ")" t.state).map fun u => { state := u.state, value := t.value + 1 } := by
  have hbetween : rules.run { rounds, depth := levels } parens s =
      Parser.map (Parser.seqRight (Parser.literal "(")
        (Parser.seqLeft (rules.run { rounds, depth := levels } (.call .depth))
          (Parser.literal ")"))) (· + 1) s := rfl
  simp only [hbetween, Parser.map, Parser.seqRight_apply, Parser.seqLeft_eq_zipWith,
    Parser.zipWith_apply, Outcome.map_eq_bind, Outcome.bind_assoc, Outcome.bind_success,
    Success.map]

/-- The outer rule makes up for every failure of a pair. -/
theorem run_depth_eq (hs : s.WellFormed) :
    rules.run { rounds, depth := levels + 1 } depth s =
      match rules.run { rounds, depth := levels } parens s with
      | .success r => .success r
      | .failure _ => .success { state := s, value := 0 }
      | .fault c => .fault c := by
  have hchoice : rules.run { rounds, depth := levels + 1 } depth s =
      Parser.any [rules.run { rounds, depth := levels } parens,
        Parser.map (Parser.literal "") fun _ => 0] s := rfl
  have hnothing : Parser.literal "" s = .success { state := s, value := "" } :=
    Parser.literal_of_append hs rfl
  rw [hchoice, Parser.any_pair_apply, Parser.map, hnothing]
  cases rules.run { rounds, depth := levels } parens s with
  | success r => rfl
  | failure e => rfl
  | fault c => rfl

/-- Where no parenthesis is opened, the depth is zero and nothing is consumed. -/
theorem run_depth_of_not_open (hs : s.WellFormed) (hopen : ∀ c ∈ s.remaining.head?, c ≠ '(') :
    rules.run { rounds, depth := levels + 1 } depth s = .success { state := s, value := 0 } := by
  have hstarts : ¬"(".toList <+: s.remaining := by
    rintro ⟨back, hback⟩
    exact hopen '(' (by rw [← hback]; rfl) rfl
  rw [run_depth_eq hs, run_parens, Parser.literal_of_not_starting hs hstarts,
    Outcome.bind_failure]

/-- Behind an opening parenthesis, all depends on the character behind the inside. -/
theorem run_depth_of_open {cs : List Char} {v : Nat} (hs : s.WellFormed)
    (hremaining : s.remaining = '(' :: cs) (ht : t.WellFormed)
    (hinside : rules.run { rounds, depth := levels } depth (s.skip ['(']) =
      .success { state := t, value := v }) :
    rules.run { rounds, depth := levels + 2 } depth s =
      if t.peek = some ')' then .success { state := t.skip [')'], value := v + 1 }
      else .success { state := s, value := 0 } := by
  have hopen : Parser.literal "(" s = .success { state := s.skip ['('], value := "(" } :=
    Parser.literal_of_append hs hremaining
  have hcall : rules.run { rounds, depth := levels + 1 } (.call .depth) (s.skip ['(']) =
      .success { state := t, value := v } := hinside
  rw [run_depth_eq hs, run_parens, hopen, Outcome.bind_success, hcall, Outcome.bind_success]
  by_cases hpeek : t.peek = some ')'
  · obtain ⟨back, hback⟩ := List.head?_eq_some_iff.1 hpeek
    have hclose : Parser.literal ")" t = .success { state := t.skip [')'], value := ")" } :=
      Parser.literal_of_append ht hback
    rw [hclose, if_pos hpeek]
    rfl
  · have hstarts : ¬")".toList <+: t.remaining := by
      rintro ⟨back, hback⟩
      exact hpeek (by rw [State.peek, ← hback]; rfl)
    rw [Parser.literal_of_not_starting ht hstarts, if_neg hpeek]
    rfl

/-! ## All pairs -/

/-- The state behind `k` opening and `k` closing parentheses. -/
theorem skip_balanced_succ (s : State C) (k : Nat) :
    ((s.skip ['(']).skip (List.replicate k '(' ++ List.replicate k ')')).skip [')'] =
      s.skip (List.replicate (k + 1) '(' ++ List.replicate (k + 1) ')') := by
  rw [State.skip_skip, State.skip_skip, List.replicate_succ (a := '('),
    List.replicate_succ' (a := ')')]
  simp only [List.cons_append, List.nil_append, List.append_assoc]

/-- The induction is on the opening parentheses, of which each takes two levels. -/
theorem run_depth {k m : Nat} {others : List Char} (hs : s.WellFormed)
    (hopens : Opens k m s.remaining others) (hlevels : 2 * k < levels) :
    rules.run { rounds, depth := levels } depth s =
      .success
        (if k ≤ m then
          { state := s.skip (List.replicate k '(' ++ List.replicate k ')'), value := k }
        else { state := s, value := 0 }) := by
  induction k generalizing s levels with
  | zero =>
    obtain ⟨levels, rfl⟩ : ∃ n, levels = n + 1 := ⟨levels - 1, by omega⟩
    obtain ⟨rest, hremaining, hrest, -⟩ := hopens
    rw [List.replicate_zero, List.nil_append] at hremaining
    rw [← hremaining] at hrest
    rw [run_depth_of_not_open hs hrest, if_pos (Nat.zero_le m)]
    rfl
  | succ k ih =>
    obtain ⟨levels, rfl⟩ : ∃ n, levels = n + 2 := ⟨levels - 2, by omega⟩
    obtain ⟨rest, hremaining, hrest, hclosing, hothers⟩ := hopens
    rw [List.replicate_succ, List.cons_append] at hremaining
    have hinner : (s.skip ['(']).WellFormed := State.wellFormed_skip hs hremaining
    have hnext : (s.skip ['(']).remaining = List.replicate k '(' ++ rest :=
      State.remaining_skip hs hremaining
    -- the rest is the same inside, with an opening parenthesis less in front of it
    have hinside : rules.run { rounds, depth := levels } depth (s.skip ['(']) = _ :=
      ih hinner ⟨rest, hnext, hrest, hclosing, hothers⟩ (by omega)
    by_cases hle : k ≤ m
    · -- the pairs inside are complete, and have left the other closing parentheses
      obtain ⟨left, rfl⟩ := Nat.exists_eq_add_of_le hle
      have hparts : (s.skip ['(']).remaining =
          (List.replicate k '(' ++ List.replicate k ')') ++
            (List.replicate left ')' ++ others) := by
        rw [hnext, hclosing, List.replicate_add]
        simp only [List.append_assoc]
      rw [if_pos hle] at hinside
      rw [run_depth_of_open hs hremaining (State.wellFormed_skip hinner hparts) hinside,
        State.peek_skip hinner hparts, skip_balanced_succ]
      cases left with
      | zero =>
        have hmissing : ¬(List.replicate 0 ')' ++ others).head? = some ')' :=
          fun h => hothers _ h rfl
        rw [if_neg hmissing, if_neg (by omega)]
      | succ left =>
        have hclose : (List.replicate (left + 1) ')' ++ others).head? = some ')' := rfl
        rw [if_pos hclose, if_pos (by omega)]
    · -- the pairs inside have been given up, and the next character opens the first of them
      rw [if_neg hle] at hinside
      obtain ⟨j, rfl⟩ : ∃ j, k = j + 1 := ⟨k - 1, by omega⟩
      have hpeek : ¬(s.skip ['(']).peek = some ')' := by
        rw [State.peek, hnext, List.replicate_succ, List.cons_append, List.head?_cons]
        decide
      rw [run_depth_of_open hs hremaining hinner hinside, if_neg hpeek, if_neg (by omega)]

/-- The count of a whole text is that of its pairs, if it has nothing but pairs. -/
theorem run_text_eq_success_iff {text : String} {k m n : Nat} {others : List Char} {b : Budget}
    (hopens : Opens k m text.toList others) (hlevels : 2 * k < b.depth) :
    (rules.run b depth).run text = .success n ↔ k = n ∧ m = n ∧ others = [] := by
  have hs : (State.start text ()).WellFormed := State.wellFormed_start text ()
  have hremaining := State.remaining_start text ()
  rw [← hremaining] at hopens
  have hparts := hopens.eq_append
  have hrun : rules.run b depth (.start text ()) = _ := run_depth hs hopens hlevels
  rw [Parser.run_of_success hrun]
  by_cases hle : k ≤ m
  · obtain ⟨left, rfl⟩ := Nat.exists_eq_add_of_le hle
    rw [List.replicate_add, List.append_assoc, ← List.append_assoc] at hparts
    have hend := State.isAtEnd_iff (State.wellFormed_skip hs hparts)
    rw [State.remaining_skip hs hparts, List.append_eq_nil_iff, List.replicate_eq_nil_iff] at hend
    simp only [if_pos hle, hend]
    split
    · next hnothing =>
      obtain ⟨rfl, rfl⟩ := hnothing
      simp
    · next hmore =>
      simp only [reduceCtorEq, false_iff]
      rintro ⟨rfl, hleft, hothers⟩
      exact hmore ⟨by omega, hothers⟩
  · have hend : ¬(State.start text ()).isAtEnd = true := by
      rw [State.isAtEnd_iff hs, hparts]
      obtain ⟨j, rfl⟩ : ∃ j, k = j + 1 := ⟨k - 1, by omega⟩
      exact List.cons_ne_nil _ _
    simp only [if_neg hle, if_neg hend, reduceCtorEq, false_iff]
    rintro ⟨rfl, rfl, -⟩
    exact hle (Nat.le_refl _)

/-- The rule for parentheses takes the pairs that a text starts with. If at least as many closing
parentheses follow the opening ones, all of the opening ones are taken with as many closing ones,
and counted; if fewer follow, nothing is taken, and the count is zero. So the rule succeeds
everywhere, with levels enough for twice the opening parentheses. On a whole text, the count is `n`
exactly if the text is `n` opening parentheses and then `n` closing ones; every other text is given
up with a failure. -/
theorem depth_counts_parentheses :
    (∀ (text : String) (n : Nat) (b : Budget), 2 * text.toList.length < b.depth →
      ((rules.run b depth).run text = .success n ↔
        text.toList = List.replicate n '(' ++ List.replicate n ')')) ∧
    (∀ (C : Type) (s : State C), s.WellFormed → ∀ k m others, Opens k m s.remaining others →
      ∀ b : Budget, 2 * k < b.depth →
        (k ≤ m → rules.run b depth s =
          .success { state := { s with index := s.index + 2 * k }, value := k }) ∧
        (m < k → rules.run b depth s = .success { state := s, value := 0 })) ∧
    (∀ (C : Type) (s : State C), s.WellFormed → ∃ r, ∀ b : Budget,
      2 * s.remaining.length < b.depth → rules.run b depth s = .success r) ∧
    ∀ text, ∃ o, (∀ c, o ≠ .fault c) ∧ ∀ b : Budget,
      2 * text.toList.length < b.depth → (rules.run b depth).run text = o := by
  have hends : ∀ (C : Type) (s : State C), s.WellFormed → ∃ r, ∀ b : Budget,
      2 * s.remaining.length < b.depth → rules.run b depth s = .success r := by
    intro C s hs
    obtain ⟨k, m, others, hopens⟩ := exists_opens s.remaining
    have hk := hopens.le_length
    exact ⟨_, fun b hlevels => run_depth hs hopens (by omega)⟩
  refine ⟨?_, ?_, hends, ?_⟩
  · intro text n b hlevels
    constructor
    · intro hrun
      obtain ⟨k, m, others, hopens⟩ := exists_opens text.toList
      have hk := hopens.le_length
      obtain ⟨rfl, rfl, rfl⟩ := (run_text_eq_success_iff hopens (by omega)).1 hrun
      rw [hopens.eq_append, List.append_nil]
    · intro htext
      have hopens := opens_balanced n
      rw [← htext] at hopens
      have hn := hopens.le_length
      exact (run_text_eq_success_iff hopens (by omega)).2 ⟨rfl, rfl, rfl⟩
  · intro C s hs k m others hopens b hlevels
    have hrun : rules.run b depth s = _ := run_depth hs hopens hlevels
    constructor
    · intro hle
      rw [if_pos hle, State.skip, byteLength_balanced] at hrun
      exact hrun
    · intro hlt
      rw [if_neg (by omega)] at hrun
      exact hrun
  · intro text
    obtain ⟨r, hr⟩ := hends Unit (.start text ()) (State.wellFormed_start text ())
    rw [State.remaining_start] at hr
    refine ⟨_, ?_, fun b hlevels => Parser.run_of_success (hr b hlevels)⟩
    intro c
    split <;> simp

/-- Three pairs make up a text. Of three opening parentheses and one closing one nothing is taken,
and of two opening ones and three closing ones the last closing one is left. -/
theorem depth_counts_parentheses_unbalanced :
    (rules.run { rounds := 0, depth := 13 } depth).run "((()))" = .success 3 ∧
    rules.run { rounds := 0, depth := 7 } depth { text := "é((()", index := 2, context := true } =
      .success { state := { text := "é((()", index := 2, context := true }, value := 0 } ∧
    rules.run { rounds := 0, depth := 5 } depth { text := "é(()))", index := 2, context := true } =
      .success { state := { text := "é(()))", index := 6, context := true }, value := 2 } := by
  obtain ⟨hwhole, hcounts, -, -⟩ := depth_counts_parentheses
  have hfew : ({ text := "é((()", index := 2, context := true } : State Bool).WellFormed := by
    decide
  have hmany : ({ text := "é(()))", index := 2, context := true } : State Bool).WellFormed := by
    decide
  refine ⟨(hwhole _ 3 _ (by decide)).2 rfl, ?_, ?_⟩
  · have hopens : Opens 3 1 "((()".toList [] := ⟨[')'], rfl, by simp, rfl, by simp⟩
    exact (hcounts Bool _ hfew 3 1 [] hopens _ (by decide)).2 (by decide)
  · have hopens : Opens 2 3 "(()))".toList [] := ⟨[')', ')', ')'], rfl, by simp, rfl, by simp⟩
    exact (hcounts Bool _ hmany 2 3 [] hopens _ (by decide)).1 (by decide)

end Parentheses

end ContextParser
