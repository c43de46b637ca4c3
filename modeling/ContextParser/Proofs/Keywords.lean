import ContextParser.Proofs.TokenLists

/-!
# Keywords and identifiers

A keyword is a fixed text with a word boundary behind it. For a text that is itself an identifier
the boundary is just where the identifier ends, so the keyword is found where an identifier of this
spelling is found and nowhere else (`Parser.keyword_iff_identifier`).

A keyword that ends in punctuation would not need a boundary, since no identifier goes on there. The
boundary is asked for all the same, and it is one only if a letter or digit follows, or nothing at
all. So the rule that a keyword may not be followed by a letter or digit if it ends with one is not
the whole condition. It is missed where punctuation, or any other character that is neither a letter
nor a digit, comes behind punctuation, and in this case alone (`Parser.keyword_follows_rule_iff`).
-/

set_option autoImplicit false

namespace ContextParser

namespace Text

/-- Where the second text follows the first, two characters meet that are both letters or digits, or
that are both neither. -/
def Meets (alphanumeric : Bool) (front back : List Char) : Prop :=
  ∃ c ∈ front.getLast?, ∃ d ∈ back.head?,
    isAlphanumeric c = alphanumeric ∧ isAlphanumeric d = alphanumeric

instance (alphanumeric : Bool) (front back : List Char) :
    Decidable (Meets alphanumeric front back) :=
  decidable_of_iff
    ((front.getLast?.any (isAlphanumeric · == alphanumeric) &&
      back.head?.any (isAlphanumeric · == alphanumeric)) = true) <| by
    unfold Meets
    cases front.getLast? <;> cases back.head? <;> simp

/-- There is a word boundary between two texts if no two characters of one kind meet. -/
theorem forall_ne_iff_not_meets {front back : List Char} {last : Char}
    (hlast : front.getLast? = some last) :
    (∀ next ∈ back.head?, isAlphanumeric last ≠ isAlphanumeric next) ↔
      ¬Meets true front back ∧ ¬Meets false front back := by
  unfold Meets
  rw [hlast]
  cases back with
  | nil => simp
  | cons d ds => cases hl : isAlphanumeric last <;> cases hd : isAlphanumeric d <;> simp [hl, hd]

/-- The characters that meet are of one kind only. -/
theorem Meets.not_meets {alphanumeric : Bool} {front back : List Char}
    (h : Meets alphanumeric front back) : ¬Meets (!alphanumeric) front back := by
  obtain ⟨c, hc, -, -, hkind, -⟩ := h
  rintro ⟨c', hc', -, -, hkind', -⟩
  obtain rfl := Option.some.inj (hc.symm.trans hc')
  rw [hkind] at hkind'
  exact (Bool.eq_not_self alphanumeric).1 hkind'

/-- Every character of an identifier is a letter or digit. -/
theorem IsToken.forall_isAlphanumeric {word : String}
    (hword : IsToken isAlphabetic isAlphanumeric word) :
    ∀ c ∈ word.toList, isAlphanumeric c = true := by
  obtain ⟨x, xs, htext, hx, hxs⟩ := hword
  rw [htext, List.forall_mem_cons]
  exact ⟨isAlphanumeric_of_isAlphabetic hx, hxs⟩

/-- An identifier ends with a letter or digit. -/
theorem IsToken.exists_getLast? {word : String}
    (hword : IsToken isAlphabetic isAlphanumeric word) :
    ∃ last, word.toList.getLast? = some last ∧ isAlphanumeric last = true := by
  have hne : word.toList ≠ [] := by
    obtain ⟨x, xs, htext, -⟩ := hword
    rw [htext]
    exact List.cons_ne_nil x xs
  have hletter := hword.forall_isAlphanumeric _ (List.getLast_mem hne)
  exact ⟨_, List.getLast?_eq_some_getLast hne, hletter⟩

end Text

namespace Parser

variable {C : Type} {text word : String} {last : Char} {s : State C}

/-- A keyword is found where its text comes next and a character of the other kind, or none, comes
behind it. -/
theorem keyword_success_iff (hlast : text.toList.getLast? = some last) (hs : s.WellFormed)
    {r : Success C String} :
    keyword text s = .success r ↔
      ∃ back, s.remaining = text.toList ++ back ∧
        (∀ next ∈ back.head?, Text.isAlphanumeric last ≠ Text.isAlphanumeric next) ∧
        r = { state := s.skip text.toList, value := text } := by
  rw [(reads_keyword hlast).success_iff hs]
  -- the context is not touched, so what is read leads to where the text is skipped
  constructor
  · rintro ⟨_, back, _, _, hremaining, ⟨⟨⟨rfl, rfl⟩, hnext⟩, rfl⟩, rfl⟩
    exact ⟨back, hremaining, hnext, rfl⟩
  · rintro ⟨back, hremaining, hnext, rfl⟩
    exact ⟨_, back, _, _, hremaining, ⟨⟨⟨rfl, rfl⟩, hnext⟩, rfl⟩, rfl⟩

/-- Behind the text of a keyword, a character of the same kind as the last one is refused. -/
theorem keyword_of_continued {next : Char} {cs : List Char} (hs : s.WellFormed)
    (hremaining : s.remaining = text.toList ++ next :: cs)
    (hlast : text.toList.getLast? = some last)
    (hsame : Text.isAlphanumeric last = Text.isAlphanumeric next) :
    keyword text s = .failure (.mismatch "Expected word boundary" (s.skip text.toList)) := by
  have hinside : ¬isAtWordBoundary (s.skip text.toList) = true := by
    rw [isAtWordBoundary_skip_iff hs hremaining hlast]
    intro hnext
    exact hnext next rfl hsame
  rw [keyword_of_append hs hremaining, if_neg hinside]

/-! ## Keywords that are identifiers -/

/-- A keyword that is an identifier is found exactly where an identifier is found that is the
keyword. -/
theorem keyword_success_iff_identifier
    (hword : Text.IsToken Text.isAlphabetic Text.isAlphanumeric word) (hs : s.WellFormed)
    {r : Success C String} :
    keyword word s = .success r ↔ identifier s = .success r ∧ r.value = word := by
  obtain ⟨last, hlast, hletter⟩ := hword.exists_getLast?
  obtain ⟨t, value⟩ := r
  rw [keyword_success_iff hlast hs, takesToken_identifier.success_iff hs, hletter]
  constructor
  · rintro ⟨back, hremaining, hnext, hsame⟩
    cases hsame
    refine ⟨⟨back, hremaining, hword, ?_, rfl⟩, rfl⟩
    intro c hc
    exact Bool.eq_false_iff.2 (hnext c hc).symm
  · rintro ⟨⟨back, hremaining, -, hstop, rfl⟩, rfl⟩
    refine ⟨back, hremaining, ?_, rfl⟩
    intro c hc
    rw [hstop c hc]
    exact Bool.noConfusion

/-- A keyword that is itself an identifier is taken exactly where an identifier with this spelling
comes next, and the two then end in the same state. Everywhere else the keyword fails. In particular
it does so at the start of any longer identifier, behind the letters that agree. -/
theorem keyword_iff_identifier
    (hword : Text.IsToken Text.isAlphabetic Text.isAlphanumeric word) (hs : s.WellFormed) :
    (∀ r, keyword word s = .success r ↔ identifier s = .success r ∧ r.value = word) ∧
    ((∃ e, keyword word s = .failure e) ↔
      ¬∃ t, identifier s = .success { state := t, value := word }) ∧
    ∀ longer, Text.IsToken Text.isAlphabetic Text.isAlphanumeric longer →
      word.toList <+: longer.toList → word ≠ longer → longer.toList <+: s.remaining →
      keyword word s = .failure (.mismatch "Expected word boundary" (s.skip word.toList)) := by
  obtain ⟨last, hlast, hletter⟩ := hword.exists_getLast?
  refine ⟨fun r => keyword_success_iff_identifier hword hs, ?_, ?_⟩
  · constructor
    · rintro ⟨e, he⟩ ⟨t, ht⟩
      have hsuccess := (keyword_success_iff_identifier hword hs).2 ⟨ht, rfl⟩
      simp [he] at hsuccess
    · intro hnone
      cases hrun : keyword word s with
      | success r =>
        obtain ⟨hidentifier, rfl⟩ := (keyword_success_iff_identifier hword hs).1 hrun
        exact absurd ⟨r.state, hidentifier⟩ hnone
      | failure e => exact ⟨e, rfl⟩
      | fault c => exact absurd hrun ((reads_keyword hlast).ne_fault hs c)
  · rintro longer hlonger ⟨more, hmore⟩ hne ⟨back, hback⟩
    cases more with
    | nil =>
      rw [List.append_nil, String.toList_inj] at hmore
      exact absurd hmore hne
    | cons next cs =>
      have hremaining : s.remaining = word.toList ++ next :: (cs ++ back) := by
        rw [← hback, ← hmore, List.append_assoc, List.cons_append]
      have hnext : Text.isAlphanumeric next = true := by
        apply hlonger.forall_isAlphanumeric
        rw [← hmore]
        exact List.mem_append_right _ List.mem_cons_self
      exact keyword_of_continued hs hremaining hlast (hletter.trans hnext.symm)

/-- The word is there at the end of one text, and goes on with a digit in the other. -/
theorem keyword_iff_identifier_umlaut :
    Text.IsToken Text.isAlphabetic Text.isAlphanumeric "über" ∧
    keyword "über" { text := "é über", index := 3, context := 7 } =
      .success { state := { text := "é über", index := 8, context := 7 }, value := "über" } ∧
    keyword "über" { text := "é über2", index := 3, context := 7 } =
      .failure { kind := .mismatch, message := "Expected word boundary",
                 state := { text := "é über2", index := 8, context := 7 } } := by
  have hword : Text.IsToken Text.isAlphabetic Text.isAlphanumeric "über" := by decide +kernel
  have hlonger : Text.IsToken Text.isAlphabetic Text.isAlphanumeric "über2" := by decide +kernel
  have hs : ({ text := "é über", index := 3, context := 7 } : State Nat).WellFormed := by decide
  have hs' : ({ text := "é über2", index := 3, context := 7 } : State Nat).WellFormed := by decide
  obtain ⟨hsuccess, -⟩ := keyword_iff_identifier hword hs
  obtain ⟨-, -, hfailure⟩ := keyword_iff_identifier hword hs'
  refine ⟨hword, (hsuccess _).2 ⟨by decide +kernel, rfl⟩, ?_⟩
  exact hfailure "über2" hlonger (by decide) (by decide) (by decide)

/-! ## All keywords -/

/-- A keyword is found where its text comes next and no two characters of one kind meet at its
end. -/
theorem keyword_success_iff_not_meets (htext : text ≠ "") (hs : s.WellFormed)
    {r : Success C String} :
    keyword text s = .success r ↔
      ∃ back, s.remaining = text.toList ++ back ∧ ¬Text.Meets true text.toList back ∧
        ¬Text.Meets false text.toList back ∧
        r = { state := s.skip text.toList, value := text } := by
  have hne : text.toList ≠ [] := by rwa [ne_eq, String.toList_eq_nil_iff]
  have hlast := List.getLast?_eq_some_getLast hne
  simp only [keyword_success_iff hlast hs, Text.forall_ne_iff_not_meets hlast, and_assoc]

/-- A keyword is taken where its text comes next and neither two letters or digits meet behind it
nor two characters that are neither. The rule for keywords only names the first of these conditions:
it is followed exactly in those states where two characters that are neither do not meet. Where they
do meet the keyword fails, although nothing that follows could make its text a part of a longer
word. -/
theorem keyword_follows_rule_iff (htext : text ≠ "") (hs : s.WellFormed) :
    (∀ r, keyword text s = .success r ↔
      ∃ back, s.remaining = text.toList ++ back ∧ ¬Text.Meets true text.toList back ∧
        ¬Text.Meets false text.toList back ∧
        r = { state := s.skip text.toList, value := text }) ∧
    (((∃ r, keyword text s = .success r) ↔
        ∃ back, s.remaining = text.toList ++ back ∧ ¬Text.Meets true text.toList back) ↔
      ¬∃ back, s.remaining = text.toList ++ back ∧ Text.Meets false text.toList back) ∧
    ∀ back, s.remaining = text.toList ++ back → Text.Meets false text.toList back →
      keyword text s = .failure (.mismatch "Expected word boundary" (s.skip text.toList)) := by
  have hsuccess {r : Success C String} := keyword_success_iff_not_meets htext hs (r := r)
  have hrefused : ∀ back, s.remaining = text.toList ++ back → Text.Meets false text.toList back →
      keyword text s = .failure (.mismatch "Expected word boundary" (s.skip text.toList)) := by
    rintro back hremaining ⟨c, hc, d, hd, hlast, hnext⟩
    obtain ⟨cs, rfl⟩ := List.head?_eq_some_iff.1 hd
    exact keyword_of_continued hs hremaining hc (hlast.trans hnext.symm)
  refine ⟨fun r => hsuccess, ⟨?_, ?_⟩, hrefused⟩
  · -- the rule would let the text pass, since what meets are no letters or digits
    rintro hrule ⟨back, hremaining, hmeets⟩
    obtain ⟨r, hr⟩ := hrule.2 ⟨back, hremaining, hmeets.not_meets⟩
    rw [hrefused back hremaining hmeets] at hr
    simp at hr
  · intro hnone
    constructor
    · rintro ⟨r, hr⟩
      obtain ⟨back, hremaining, halone, -, -⟩ := hsuccess.1 hr
      exact ⟨back, hremaining, halone⟩
    · rintro ⟨back, hremaining, halone⟩
      have hapart : ¬Text.Meets false text.toList back := by
        intro hmeets
        exact hnone ⟨back, hremaining, hmeets⟩
      exact ⟨_, hsuccess.2 ⟨back, hremaining, halone, hapart, rfl⟩⟩

/-- Two characters of punctuation, taken in front of a letter and refused in front of another
character of punctuation. -/
theorem keyword_follows_rule_iff_arrow :
    keyword "<=" { text := "é<=ß", index := 2, context := 7 } =
      .success { state := { text := "é<=ß", index := 4, context := 7 }, value := "<=" } ∧
    keyword "<=" { text := "é<=>", index := 2, context := 7 } =
      .failure { kind := .mismatch, message := "Expected word boundary",
                 state := { text := "é<=>", index := 4, context := 7 } } := by
  have hs : ({ text := "é<=ß", index := 2, context := 7 } : State Nat).WellFormed := by decide
  have hs' : ({ text := "é<=>", index := 2, context := 7 } : State Nat).WellFormed := by decide
  obtain ⟨hsuccess, -, -⟩ := keyword_follows_rule_iff (show "<=" ≠ "" by decide) hs
  obtain ⟨-, -, hrefused⟩ := keyword_follows_rule_iff (show "<=" ≠ "" by decide) hs'
  constructor
  · exact (hsuccess _).2 ⟨['ß'], by decide, by decide +kernel, by decide +kernel, rfl⟩
  · exact hrefused ['>'] (by decide) (by decide +kernel)

/-- Not even a space is let through behind punctuation, though the rule has nothing against it. -/
theorem keyword_refuses_space_after_punctuation :
    ¬((∃ r, keyword "<=" (.start "<= 1" ()) = .success r) ↔
      ∃ back, (State.start "<= 1" ()).remaining = "<=".toList ++ back ∧
        ¬Text.Meets true "<=".toList back) := by
  intro hrule
  have halone : ¬Text.Meets true "<=".toList " 1".toList := by decide +kernel
  obtain ⟨r, hr⟩ := hrule.2 ⟨" 1".toList, rfl, halone⟩
  have hfails : keyword "<=" (.start "<= 1" ()) =
      .failure { kind := .mismatch, message := "Expected word boundary",
                 state := { text := "<= 1", index := 2, context := () } } := by
    decide +kernel
  rw [hfails] at hr
  simp at hr

end Parser

end ContextParser
