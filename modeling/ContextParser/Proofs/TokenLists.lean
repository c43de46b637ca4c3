import ContextParser.Proofs.Obstacles
import ContextParser.Proofs.Readings

/-!
# Lists of tokens

A token is a character of one class with characters of another class after it. Tokens with a fixed
text between each two of them are what `separatedBy` is made for: it takes every token for as long
as it goes on, and then looks for the separator. Where no token goes on with the first character of
the separator, nothing is lost by that, so parsing undoes joining and joining undoes parsing
(`tokenLists_roundtrip`). The separator may well go on with characters of tokens; and a separator
without a token after it is left to the end of the text, where the run fails.

The first token and the tokens behind a separator differ in what is in front of them, and in nothing
else; `Parser.takesAll_turn_iff` is the step for both.
-/

set_option autoImplicit false

namespace ContextParser

namespace Text

/-- A character of the first class with any number of characters of the second class after it. -/
def IsToken (initial following : Char → Bool) (word : String) : Prop :=
  ∃ x xs, word.toList = x :: xs ∧ initial x = true ∧ ∀ c ∈ xs, following c = true

instance (initial following : Char → Bool) (word : String) :
    Decidable (IsToken initial following word) :=
  decidable_of_iff ((word.toList.head?.any initial && word.toList.tail.all following) = true) <| by
    unfold IsToken
    cases word.toList <;> simp

/-- Some words in a row, with the separator between each two of them, and with the given characters
in front of the first if there is one. -/
def joined (sep : String) (front : List Char) : List String → List Char
  | [] => []
  | word :: words => front ++ word.toList ++ joined sep sep.toList words

/-- Joined words are the words in a row with the separator between each two of them. -/
theorem toList_intercalate (sep : String) (words : List String) :
    (sep.intercalate words).toList = joined sep [] words := by
  cases words with
  | nil => rfl
  | cons word words =>
    induction words generalizing word with
    | nil => simp [joined]
    | cons next words ih =>
      rw [String.intercalate_cons_cons, String.toList_append, String.toList_append, ih]
      simp only [joined, List.nil_append, List.append_assoc]

/-- Behind each of the words, the text ends or a separator starts. -/
theorem head?_joined {sep : String} {holds : Char → Prop}
    (hsep : ∃ c ∈ sep.toList.head?, holds c) (words : List String) :
    ∀ c ∈ (joined sep sep.toList words).head?, holds c := by
  obtain ⟨c, hc, hholds⟩ := hsep
  obtain ⟨cs, hcs⟩ := List.head?_eq_some_iff.1 hc
  cases words with
  | nil => simp [joined]
  | cons word words => simpa [joined, hcs] using hholds

end Text

namespace Parser

variable {C : Type} {initial following : Char → Bool} {sep word : String} {words : List String}
  {rounds : Nat} {s t : State C}

/-! ## One token -/

/-- A parser that takes one token behind certain characters, for as long as the token goes on. -/
structure TakesToken (initial following : Char → Bool) (front : List Char)
    (p : Parser C String) : Prop where
  success_iff : ∀ {s t : State C} {word : String}, s.WellFormed →
    (p s = .success { state := t, value := word } ↔
      ∃ back, s.remaining = front ++ word.toList ++ back ∧ Text.IsToken initial following word ∧
        (∀ c ∈ back.head?, following c = false) ∧ t = s.skip (front ++ word.toList))
  ne_fault : ∀ {s : State C}, s.WellFormed → ∀ c, p s ≠ .fault c

/-- What is read of a span is a token that stops in time. -/
theorem takesToken_of_reads {p : Parser C String}
    (hp : Reads p fun c front back value d =>
      (value = String.ofList front ∧ ∃ x xs, front = x :: xs ∧ initial x = true ∧
        Text.IsRun following xs back) ∧ d = c) :
    TakesToken initial following [] p where
  success_iff := by
    intro s t word hs
    rw [hp.success_iff hs]
    constructor
    · rintro ⟨front, back, value, d, hremaining, ⟨⟨rfl, x, xs, rfl, hx, hxs, hstop⟩, rfl⟩, hsame⟩
      cases hsame
      simp only [List.nil_append, String.toList_ofList]
      exact ⟨back, hremaining, ⟨x, xs, String.toList_ofList, hx, hxs⟩, hstop, rfl⟩
    · rintro ⟨back, hremaining, ⟨x, xs, hword, hx, hxs⟩, hstop, rfl⟩
      exact ⟨word.toList, back, word, s.context, hremaining,
        ⟨⟨String.ofList_toList.symm, x, xs, hword, hx, hxs, hstop⟩, rfl⟩, rfl⟩
  ne_fault := hp.ne_fault

/-- A span takes one token. -/
theorem takesToken_charSpan :
    TakesToken initial following [] (charSpan initial following : Parser C String) :=
  takesToken_of_reads (reads_charSpan initial following)

/-- An identifier takes one token of letters and digits that starts with a letter. -/
theorem takesToken_identifier :
    TakesToken Text.isAlphabetic Text.isAlphanumeric [] (identifier : Parser C String) :=
  takesToken_of_reads reads_identifier

/-- A token behind a separator. -/
theorem takesToken_round :
    TakesToken initial following sep.toList
      (seqRight (literal sep) (charSpan initial following) : Parser C String) where
  success_iff := by
    intro s t word hs
    rw [seqRight_apply]
    by_cases hstarts : sep.toList <+: s.remaining
    · obtain ⟨rest, hrest⟩ := hstarts
      rw [literal_of_append hs hrest.symm, Outcome.bind_success,
        takesToken_charSpan.success_iff (State.wellFormed_skip hs hrest.symm),
        State.remaining_skip hs hrest.symm, ← hrest]
      simp only [State.skip_skip, List.nil_append, List.append_assoc,
        List.append_cancel_left_eq]
    · rw [literal_of_not_starting hs hstarts]
      constructor
      · intro h
        simp at h
      · rintro ⟨back, hremaining, -⟩
        rw [List.append_assoc] at hremaining
        exact absurd ⟨_, hremaining.symm⟩ hstarts
  ne_fault := ((reads_literal sep).seqRight (reads_charSpan initial following)).ne_fault

/-! ## The loop -/

/-- A parser takes all that is left of the text, and makes a value of it. -/
def TakesAll {α : Type} (p : Parser C α) (s : State C) (value : α) : Prop :=
  ∃ t, p s = .success { state := t, value } ∧ t.isAtEnd = true

/-- A run for the value alone succeeds where the parser takes all of the text. -/
theorem run_success_iff {α : Type} {p : Parser Unit α} {text : String} {value : α} :
    p.run text = .success value ↔ p.TakesAll (.start text ()) value := by
  rw [run, parse, parseWith, TakesAll]
  cases p (.start text ()) with
  | success r =>
    obtain ⟨t, v⟩ := r
    cases hend : t.isAtEnd <;> simp [hend]
  | failure e => simp
  | fault c => simp

/-- A word is added to the words that are taken after it. -/
theorem takesAll_cons_iff {next : Parser C (List String)} :
    TakesAll (fun s => (next s).map (·.map (word :: ·))) s words ↔
      ∃ rest, words = word :: rest ∧ next.TakesAll s rest := by
  simp only [TakesAll]
  cases next s with
  | success r =>
    obtain ⟨u, rest⟩ := r
    simp only [Outcome.map_success, Success.map, Outcome.success.injEq, Success.mk.injEq]
    constructor
    · rintro ⟨t, ⟨rfl, rfl⟩, hend⟩
      exact ⟨rest, rfl, u, ⟨rfl, rfl⟩, hend⟩
    · rintro ⟨rest, rfl, t, ⟨rfl, rfl⟩, hend⟩
      exact ⟨u, ⟨rfl, rfl⟩, hend⟩
  | failure e => simp
  | fault c => simp

/-- Where the turns after a token take all of the text exactly if that is separators and tokens, the
turn of the token takes all of the text exactly if that is the token and such a text. -/
theorem takesAll_turn_iff (hsep : ∃ c ∈ sep.toList.head?, following c = false)
    {front : List Char} {p : Parser C String} (hp : TakesToken initial following front p)
    {next : Parser C (List String)}
    (hnext : ∀ {t : State C} {words : List String}, t.WellFormed →
      t.remaining.length < s.remaining.length →
      (next.TakesAll t words ↔
        (∀ word ∈ words, Text.IsToken initial following word) ∧
          t.remaining = Text.joined sep sep.toList words))
    (hs : s.WellFormed) :
    (turn p next).TakesAll s words ↔
      (∀ word ∈ words, Text.IsToken initial following word) ∧
        s.remaining = Text.joined sep front words := by
  have hjoined : ∀ {word words}, Text.IsToken initial following word →
      s.remaining = Text.joined sep front (word :: words) →
      p s = .success { state := s.skip (front ++ word.toList), value := word } :=
    fun hword hremaining =>
      (hp.success_iff hs).2 ⟨_, hremaining, hword, Text.head?_joined hsep _, rfl⟩
  rw [TakesAll, turn]
  cases hrun : p s with
  | fault c => exact absurd hrun (hp.ne_fault hs c)
  | failure e =>
    constructor
    · rintro ⟨t, hsame, hend⟩
      cases hsame
      exact ⟨by simp, (State.isAtEnd_iff hs).1 hend⟩
    · rintro ⟨htokens, hremaining⟩
      cases words with
      | nil => exact ⟨s, rfl, (State.isAtEnd_iff hs).2 hremaining⟩
      | cons word words =>
        have hsuccess := hjoined (htokens word List.mem_cons_self) hremaining
        simp [hrun] at hsuccess
  | success r =>
    obtain ⟨t, first⟩ := r
    obtain ⟨back, hremaining, hfirst, -, rfl⟩ := (hp.success_iff hs).1 hrun
    have hback := State.remaining_skip hs hremaining
    have hshorter : (s.skip (front ++ first.toList)).remaining.length < s.remaining.length := by
      obtain ⟨x, xs, hx, -⟩ := hfirst
      rw [hback, hremaining, hx]
      simp only [List.length_append, List.length_cons]
      omega
    refine takesAll_cons_iff.trans ?_
    simp only [hnext (State.wellFormed_skip hs hremaining) hshorter, hback]
    constructor
    · rintro ⟨rest, rfl, htokens, rfl⟩
      exact ⟨List.forall_mem_cons.2 ⟨hfirst, htokens⟩, hremaining⟩
    · rintro ⟨htokens, hall⟩
      cases words with
      | nil =>
        obtain ⟨x, xs, hx, -⟩ := hfirst
        simp [hall, Text.joined, hx] at hremaining
      | cons word words =>
        -- the text begins with one token only that stops in time, so the first words are the same
        obtain ⟨hword, hwords⟩ := List.forall_mem_cons.1 htokens
        have hsame := (hjoined hword hall).symm.trans hrun
        obtain rfl : word = first := congrArg Success.value (Outcome.success.inj hsame)
        exact ⟨words, rfl, hwords, List.append_cancel_left (hremaining.symm.trans hall)⟩

/-- The induction is on the rounds. Every token takes a character at least, so there are enough. -/
theorem takesAll_separatedTail_iff (hsep : ∃ c ∈ sep.toList.head?, following c = false)
    (hs : s.WellFormed) (hrounds : s.remaining.length < rounds) :
    (separatedTail (charSpan initial following) (literal sep) rounds).TakesAll s words ↔
      (∀ word ∈ words, Text.IsToken initial following word) ∧
        s.remaining = Text.joined sep sep.toList words := by
  induction rounds generalizing s words with
  | zero => omega
  | succ rounds ih =>
    rw [separatedTail_succ]
    exact takesAll_turn_iff hsep takesToken_round (fun ht hshorter => ih ht (by omega)) hs

/-- Separated tokens take a text to its end exactly if it is joined from those words, and all of
them are tokens. -/
theorem takesAll_separatedBy_iff (hsep : ∃ c ∈ sep.toList.head?, following c = false)
    (hs : s.WellFormed) (hrounds : s.remaining.length ≤ rounds) :
    (separatedBy (charSpan initial following) (literal sep) rounds).TakesAll s words ↔
      (∀ word ∈ words, Text.IsToken initial following word) ∧
        s.remaining = Text.joined sep [] words := by
  rw [separatedBy_eq_turn]
  exact takesAll_turn_iff hsep takesToken_charSpan
    (fun ht hshorter => takesAll_separatedTail_iff hsep ht (by omega)) hs

end Parser

/-- The separated tokens of a whole text are certain words exactly if all of these are tokens and
the text is the words with the separator between each two of them. Neither way loses anything: no
text but the joined one yields the words, and words that have been joined are parsed as they were.
The separator must not start with a character that tokens go on with; for the rounds of the loop,
the length of the text is enough. -/
theorem tokenLists_roundtrip {initial following : Char → Bool} {sep : String}
    (hsep : ∃ c ∈ sep.toList.head?, following c = false) (text : String) (words : List String)
    {rounds : Nat} (hrounds : text.toList.length ≤ rounds) :
    (Parser.separatedBy (Parser.charSpan initial following) (Parser.literal sep) rounds).run text =
        .success words ↔
      (∀ word ∈ words, Text.IsToken initial following word) ∧ text = sep.intercalate words := by
  have hremaining : (State.start text ()).remaining = text.toList := State.remaining_start text ()
  rw [← hremaining] at hrounds
  rw [Parser.run_success_iff,
    Parser.takesAll_separatedBy_iff hsep (State.wellFormed_start text ()) hrounds, hremaining,
    ← Text.toList_intercalate, String.toList_inj]

/-- A separator that goes on with a letter, as the words around it do. -/
theorem tokenLists_roundtrip_letters :
    (∃ c ∈ ",a".toList.head?, Char.isAlpha c = false) ∧ "ab,ac,aa".toList.length ≤ 8 ∧
      (Parser.separatedBy (Parser.charSpan Char.isAlpha Char.isAlpha) (Parser.literal ",a") 8).run
          "ab,ac,aa" = .success ["ab", "c", "a"] ∧
      (∀ word ∈ ["ab", "c", "a"], Text.IsToken Char.isAlpha Char.isAlpha word) ∧
      "ab,ac,aa" = ",a".intercalate ["ab", "c", "a"] := by
  have hsep : ∃ c ∈ ",a".toList.head?, Char.isAlpha c = false := ⟨',', rfl, rfl⟩
  have hrounds : "ab,ac,aa".toList.length ≤ 8 := Nat.le_refl 8
  have hrun : (Parser.separatedBy (Parser.charSpan Char.isAlpha Char.isAlpha)
      (Parser.literal ",a") 8).run "ab,ac,aa" = .success ["ab", "c", "a"] := by
    decide +kernel
  exact ⟨hsep, hrounds, hrun,
    (tokenLists_roundtrip hsep "ab,ac,aa" ["ab", "c", "a"] hrounds).1 hrun⟩

end ContextParser
