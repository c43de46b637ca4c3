import Mathlib.Logic.Basic
import ContextParser.Proofs.Complaints
import ContextParser.Proofs.FailureKinds
import ContextParser.Proofs.Keywords
import ContextParser.Proofs.Positions
import ContextParser.Proofs.Session.Lines

/-!
# What is wrong with a line

A line that is no statement is rejected for one of two reasons. Either it starts with a statement
but goes on behind it (`GoesOn`); then it is reported where the statement ends. Or it does not start
with a statement (`NoStatement`); then it is reported where its whitespace ends, with what is wrong
with it as a declaration and with what is wrong with it as a use, one per line.

What can be wrong with a declaration or a use is told by where its parts stop to fit (`Flaw`). Both
have the same parts and differ in the word and in what is asked of the name, so there is one lemma
about the two of them (`complains_clause`). A name that is not in the table is reported before the
semicolon has been looked for.
-/

set_option autoImplicit false

namespace ContextParser.Session

open ContextParser.Parser

/-- What is said about characters that are no word, whitespace, name and semicolon in a row. A name
is held against a check, which has a message for the names that it refuses. -/
inductive Flaw (word : String) (check : String → Option String) (cs : List Char) : String → Prop
  /-- The word is missing. -/
  | word (h : ¬word.toList <+: cs) : Flaw word check cs ("Expected \"" ++ word ++ "\"")
  /-- The word goes on. -/
  | boundary {next : Char} {back : List Char} (h : cs = word.toList ++ next :: back)
      (hnext : Text.isAlphanumeric next = true) : Flaw word check cs "Expected word boundary"
  /-- No name starts behind the word and the whitespace. -/
  | name {gap back : List Char} (h : cs = word.toList ++ (gap ++ back))
      (hnext : ∀ c ∈ (gap ++ back).head?, Text.isAlphanumeric c = false)
      (hgap : Text.IsRun Text.isWhitespace gap back)
      (hback : ∀ c ∈ back.head?, Text.isAlphabetic c = false) :
      Flaw word check cs "Expected identifier"
  /-- The name is refused, whatever follows it. -/
  | refused {front back : List Char} {name message : String} (h : cs = front ++ back)
      (hopening : Opening word name front back) (hcheck : check name = some message) :
      Flaw word check cs message
  /-- The semicolon is missing. -/
  | semicolon {front space back : List Char} {name : String} (h : cs = front ++ (space ++ back))
      (hopening : Opening word name front (space ++ back)) (hcheck : check name = none)
      (hspace : Text.IsRun Text.isWhitespace space back) (hback : ¬";".toList <+: back) :
      Flaw word check cs "Expected \";\""

/-- An opening starts with its word. -/
theorem Opening.starts {word name : String} {front back : List Char}
    (h : Opening word name front back) (rest : List Char) : word.toList <+: front ++ rest := by
  obtain ⟨gap, rfl, -⟩ := h
  rw [List.append_assoc]
  exact List.prefix_append ..

namespace Flaw

variable {word message : String} {check : String → Option String} {cs : List Char}

/-- Where the characters do not start with the word, it is the word that is missing. -/
theorem message_of_not_starting (h : Flaw word check cs message) (hword : ¬word.toList <+: cs) :
    message = "Expected \"" ++ word ++ "\"" := by
  cases h with
  | word => rfl
  | boundary h => exact absurd ⟨_, h.symm⟩ hword
  | name h => exact absurd ⟨_, h.symm⟩ hword
  | refused h hopening => exact absurd (h ▸ hopening.starts _) hword
  | semicolon h hopening => exact absurd (h ▸ hopening.starts _) hword

/-- A message is a single line if those of the check are. -/
theorem not_mem_newline (h : Flaw word check cs message) (hword : '\n' ∉ word.toList)
    (hcheck : ∀ name message, IsName name.toList → check name = some message →
      '\n' ∉ message.toList) : '\n' ∉ message.toList := by
  cases h with
  | word => simpa using hword
  | boundary => decide
  | name => decide
  | refused _ hopening hmessage =>
    obtain ⟨-, -, -, -, hname, -⟩ := hopening
    exact hcheck _ _ hname hmessage
  | semicolon => decide

end Flaw

/-- A parser of names that holds each name against a check. -/
structure ChecksNames (name : Parser NameTable String)
    (check : NameTable → String → Option String) : Prop where
  reads : Reads name fun table front back value table' =>
    (value = String.ofList front ∧ ∃ x xs, front = x :: xs ∧ Text.isAlphabetic x = true ∧
      Text.IsRun Text.isAlphanumeric xs back) ∧ check table value = none ∧ table' = table
  complains : Complains name fun table cs message =>
    ((∀ c ∈ cs.head?, Text.isAlphabetic c = false) ∧ message = "Expected identifier") ∨
      ∃ letters back, cs = letters ++ back ∧ (∃ x xs, letters = x :: xs ∧
        Text.isAlphabetic x = true ∧ Text.IsRun Text.isAlphanumeric xs back) ∧
        check table (String.ofList letters) = some message

/-- What the two statements have in common. -/
theorem complains_clause {word : String} {last : Char} (hlast : word.toList.getLast? = some last)
    (hletter : Text.isAlphanumeric last = true) {name : Parser NameTable String}
    {check : NameTable → String → Option String} (hname : ChecksNames name check) :
    Complains (seqLeft (seqLeft (seqRight (spaces (keyword word)) name) whitespace)
        (spaces (literal ";")))
      fun table cs message => Flaw word (check table) cs message := by
  have hword := reads_spaces (reads_keyword (C := NameTable) hlast)
  have hopening := reads_opening hlast hletter hname.reads
  refine ((((complains_spaces (reads_keyword hlast) (complains_keyword hlast)).seqRight hword
    hname.complains).seqLeft hopening complains_whitespace).seqLeft
    (hopening.seqLeft reads_whitespace)
    (complains_spaces (reads_literal ";") (complains_literal ";"))).congr ?_
  intro table cs message
  have hends : ∀ {cs : List Char},
      (∀ c ∈ cs.head?, Text.isAlphanumeric last ≠ Text.isAlphanumeric c) ↔
        ∀ c ∈ cs.head?, Text.isAlphanumeric c = false := by
    simp [hletter]
  constructor
  · rintro ((((⟨hnot, rfl⟩ | ⟨next, back, rfl, hnext, rfl⟩) |
      ⟨_, right, _, _, rfl, ⟨_, gap, rfl, ⟨⟨⟨rfl, -⟩, hnext⟩, rfl⟩, hgap⟩, hname⟩) |
      ⟨_, _, _, _, -, -, hfalse⟩) | ⟨_, back, value, _, rfl, ⟨_, space, _, _, rfl,
        ⟨hopens, hcheck, rfl⟩, hspace, rfl⟩, hback, rfl⟩)
    -- whitespace does not complain, so of five places to stop only four are left
    · exact .word hnot
    · exact .boundary rfl (hnext.symm.trans hletter)
    · rw [List.append_assoc]
      rcases hname with ⟨hback, rfl⟩ | ⟨letters, back, rfl, hletters, hcheck⟩
      · exact .name rfl (hends.1 hnext) hgap hback
      · have hopens := (gap_iff hletter).1 ⟨hnext, hgap, hletters⟩
        rw [← String.toList_ofList (l := letters)] at hopens ⊢
        exact .refused (by simp only [List.append_assoc]) ⟨gap, rfl, hopens⟩ hcheck
    · exact hfalse.elim
    · rw [List.append_assoc]
      exact .semicolon rfl hopens hcheck hspace hback
  · intro h
    cases h with
    | word hnot => exact .inl (.inl (.inl (.inl ⟨hnot, rfl⟩)))
    | boundary h hnext => exact .inl (.inl (.inl (.inr ⟨_, _, h, hletter.trans hnext.symm, rfl⟩)))
    | @name gap back h hnext hgap hback =>
      rw [← List.append_assoc] at h
      exact .inl (.inl (.inr ⟨_, back, _, _, h,
        ⟨_, gap, rfl, ⟨⟨⟨rfl, rfl⟩, hends.2 hnext⟩, rfl⟩, hgap⟩, .inl ⟨hback, rfl⟩⟩))
    | @refused _ back value _ h hopens hcheck =>
      obtain ⟨gap, rfl, hgap⟩ := hopens
      obtain ⟨hnext, hrun, hletters⟩ := (gap_iff hletter).2 hgap
      rw [← List.append_assoc, List.append_assoc] at h
      rw [← String.ofList_toList (s := value)] at hcheck
      exact .inl (.inl (.inr ⟨_, _, _, _, h, ⟨_, gap, rfl, ⟨⟨⟨rfl, rfl⟩, hnext⟩, rfl⟩, hrun⟩,
        .inr ⟨_, back, rfl, hletters, hcheck⟩⟩))
    | @semicolon front space back value h hopens hcheck hspace hback =>
      rw [← List.append_assoc] at h
      exact .inr ⟨front ++ space, back, value, table, h,
        ⟨front, space, (), table, rfl, ⟨hopens, hcheck, rfl⟩, hspace, rfl⟩, hback, rfl⟩

/-- What is said about the name of a use. -/
def undeclared (table : NameTable) (name : String) : Option String :=
  if name ∈ table then none else some ("Use of undeclared name " ++ name)

section

variable {table : NameTable} {name message : String}

/-- Nothing is said about a name that is in the table. -/
theorem undeclared_eq_none_iff : undeclared table name = none ↔ name ∈ table := by
  simp [undeclared]

/-- A name is reported with its own text where it is not in the table. -/
theorem undeclared_eq_some_iff :
    undeclared table name = some message ↔
      name ∉ table ∧ message = "Use of undeclared name " ++ name := by
  by_cases h : name ∈ table
  · simp [undeclared, h]
  · simp [undeclared, h, eq_comm]

/-- What is said about a name is a single line, for no letter or digit is a line feed. -/
theorem not_mem_newline_of_undeclared (hname : IsName name.toList)
    (h : undeclared table name = some message) : '\n' ∉ message.toList := by
  have htoken : Text.IsToken Text.isAlphabetic Text.isAlphanumeric name := hname
  obtain ⟨-, rfl⟩ := undeclared_eq_some_iff.1 h
  rw [String.toList_append, List.mem_append]
  rintro (hmem | hmem)
  · exact absurd hmem (by decide)
  · exact absurd (htoken.forall_isAlphanumeric '\n' hmem) (by decide)

end

/-- A declaration may have any name. -/
theorem checksNames_identifier : ChecksNames identifier fun _ _ => none where
  reads := reads_identifier.congr fun _ _ _ _ _ => by simp
  complains := complains_identifier.congr fun _ _ _ => by simp

/-- A use may have the names of the table, and reports all others as undeclared. -/
theorem checksNames_declaredName : ChecksNames (bind identifier declared) undeclared where
  reads := reads_declaredName.congr fun _ _ _ _ _ => by rw [undeclared_eq_none_iff]
  complains := by
    have hdeclared (name : String) : Complains (declared name) fun table _ message =>
        undeclared table name = some message :=
      ((complains_assertion (name ∈ ·) _).map fun _ => name).congr fun _ _ _ =>
        undeclared_eq_some_iff.symm
    refine (complains_identifier.bind reads_identifier hdeclared).congr ?_
    intro table cs message
    refine or_congr Iff.rfl ?_
    constructor
    · rintro ⟨letters, back, _, _, hcs, ⟨⟨rfl, hletters⟩, rfl⟩, hcheck⟩
      exact ⟨letters, back, hcs, hletters, hcheck⟩
    · rintro ⟨letters, back, hcs, hletters, hcheck⟩
      exact ⟨letters, back, _, table, hcs, ⟨⟨rfl, hletters⟩, rfl⟩, hcheck⟩

/-- A declaration complains of a part that is missing, and refuses no name. -/
theorem complains_declaration :
    Complains declaration fun _ cs message => Flaw "let" (fun _ => none) cs message := by
  have hlast : "let".toList.getLast? = some 't' := rfl
  have hshape : seqRight (spaces (keyword "let")) (spaces identifier) =
      (seqLeft (seqRight (spaces (keyword "let")) identifier) whitespace :
        Parser NameTable String) :=
    seqRight_seqLeft _ _ _
  rw [declaration, hshape]
  exact ((complains_clause hlast (by decide) checksNames_identifier).modifyContext
    NameTable.insert).map Statement.declare

/-- A use complains of a part that is missing, or refuses a name that is not in the table. -/
theorem complains_usage :
    Complains usage fun table cs message => Flaw "use" (undeclared table) cs message := by
  have hlast : "use".toList.getLast? = some 'e' := rfl
  exact (complains_clause hlast (by decide) checksNames_declaredName).map Statement.use

/-! ## Lines -/

/-- The line starts with a word, some whitespace and a name, with any whitespace in front. The name
is as long as it can be. -/
def Begins (word name line : String) : Prop :=
  ∃ indent front back, line.toList = indent ++ (front ++ back) ∧ IsBlank indent ∧
    Opening word name front back

/-- What is reported about a line that goes on behind a statement: the place is right behind that
statement and all whitespace after it, and the characters before it are a valid line. -/
structure GoesOn (line : String) (table : NameTable) (e : Failure NameTable) : Prop where
  kind : e.kind = .trailingInput
  split : ∃ front c back, line.toList = front ++ c :: back ∧
    e.position.offset = Text.byteLength front ∧ Text.isWhitespace c = false ∧
    ∃ r, statement.parseWith (String.ofList front) table = .success r

/-- What is reported about a line that does not start with a statement: the place is right behind
the whitespace in front, and the message is what is wrong with a declaration there and, in a second
line, what is wrong with a use. The table is as it was before. -/
structure NoStatement (line : String) (table : NameTable) (e : Failure NameTable) : Prop where
  kind : e.kind = .exhaustedAlternatives
  line_eq : e.position.line = 1
  column_eq : e.position.column = 1 + (line.toList.takeWhile Text.isWhitespace).length
  context_eq : e.state.context = table
  message : ∃ first second, e.message = first ++ "\n" ++ second ∧
    '\n' ∉ first.toList ∧ '\n' ∉ second.toList ∧
    (first = "Expected \"let\"" ∨ second = "Expected \"use\"") ∧
    ∀ name, second = "Use of undeclared name " ++ name ↔ Begins "use" name line ∧ name ∉ table

variable {line name word : String} {table : NameTable} {e : Failure NameTable}

/-- A clause ends with all whitespace behind its semicolon. -/
theorem Clause.isWhitespace_next {front back : List Char} (h : Clause word name front back) :
    ∀ c ∈ back.head?, Text.isWhitespace c = false := by
  obtain ⟨_, _, _, _, _, _, _, _, _, hback⟩ := h
  exact hback

/-- A clause behind whitespace is a whole line that says the same. -/
theorem Says.of_clause {indent rest back : List Char} (h : Clause word name rest back)
    (hindent : IsBlank indent) : Says word name (String.ofList (indent ++ rest)) := by
  obtain ⟨gap, space, tail, rfl, hgap, hne, hname, hspace, htail, -⟩ := h
  exact ⟨indent, gap, space, tail, String.toList_ofList, hindent, hgap, hne, hname, hspace, htail⟩

/-- Where the statement parser stops, there is no whitespace, and what it has consumed is a valid
line. -/
theorem statement_stops {s : State NameTable} (hs : s.WellFormed)
    {r : Success NameTable Statement} (h : statement s = .success r) :
    ∃ front back table, s.remaining = front ++ back ∧ r.state = s.after front table ∧
      (∀ c ∈ back.head?, Text.isWhitespace c = false) ∧
      ∃ t, statement.parseWith (String.ofList front) s.context = .success t := by
  obtain ⟨_, back, value, table', hremaining, ⟨indent, rest, rfl, hindent, hclause⟩, rfl⟩ :=
    (reads_statement.success_iff hs).1 h
  refine ⟨indent ++ rest, back, table', hremaining, rfl, ?_⟩
  rcases hclause with ⟨name, hclause, -, -⟩ | ⟨name, hclause, hmem, -, -⟩
  · exact ⟨hclause.isWhitespace_next,
      _, parseWith_statement_iff.2 ⟨name, .inl ⟨Says.of_clause hclause hindent.1, rfl⟩⟩⟩
  · exact ⟨hclause.isWhitespace_next,
      _, parseWith_statement_iff.2 ⟨name, .inr ⟨Says.of_clause hclause hindent.1, hmem, rfl⟩⟩⟩

/-- Where the statement parser fails, it has gone over the whitespace, and says what is wrong with
the characters behind it, once as a declaration and once as a use. -/
theorem statement_fails {s : State NameTable} (hs : s.WellFormed) (h : statement s = .failure e) :
    ∃ first second,
      Flaw "let" (fun _ => none) (s.remaining.dropWhile Text.isWhitespace) first ∧
      Flaw "use" (undeclared s.context) (s.remaining.dropWhile Text.isWhitespace) second ∧
      e = .exhausted [first, second] (s.skip (s.remaining.takeWhile Text.isWhitespace)) := by
  have hsplit := (List.takeWhile_append_dropWhile (p := Text.isWhitespace) (l := s.remaining)).symm
  have hs' := State.wellFormed_skip hs hsplit
  have hrest := State.remaining_skip hs hsplit
  rcases seqRight_eq_failure_iff.1 h with hspace | ⟨r, hspace, hany⟩
  · simp [whitespace_of_wellFormed hs] at hspace
  · rw [whitespace_of_wellFormed hs] at hspace
    obtain rfl := Outcome.success.inj hspace
    have hboth := complains_declaration.any_pair_eq_failure complains_usage hs' hany
    rwa [hrest] at hboth

/-- A line cannot start both ways. -/
theorem Flaw.missing_word {check check' : String → Option String} {cs : List Char}
    {first second : String} (hlet : Flaw "let" check cs first)
    (huse : Flaw "use" check' cs second) :
    first = "Expected \"let\"" ∨ second = "Expected \"use\"" := by
  by_cases hstarts : "let".toList <+: cs
  · obtain ⟨back, rfl⟩ := hstarts
    exact .inr (huse.message_of_not_starting (by simp))
  · exact .inl (hlet.message_of_not_starting hstarts)

/-- No other complaint sounds like that about a name. -/
theorem Flaw.eq_undeclared_iff {cs : List Char} {message : String}
    (h : Flaw "use" (undeclared table) cs message) :
    message = "Use of undeclared name " ++ name ↔
      (∃ front back, cs = front ++ back ∧ Opening "use" name front back) ∧ name ∉ table := by
  constructor
  · rintro rfl
    generalize hmessage : "Use of undeclared name " ++ name = message at h
    cases h with
    | word => simp [← String.toList_inj] at hmessage
    | boundary => simp [← String.toList_inj] at hmessage
    | name => simp [← String.toList_inj] at hmessage
    | refused h hopening hcheck =>
      obtain ⟨hmem, rfl⟩ := undeclared_eq_some_iff.1 hcheck
      obtain rfl : name = _ := by simpa [← String.toList_inj] using hmessage
      exact ⟨⟨_, _, h, hopening⟩, hmem⟩
    | semicolon => simp [← String.toList_inj] at hmessage
  · rintro ⟨⟨front, back, hcs, hopening⟩, hmem⟩
    have hrefused : Flaw "use" (undeclared table) cs ("Use of undeclared name " ++ name) :=
      .refused hcs hopening (undeclared_eq_some_iff.2 ⟨hmem, rfl⟩)
    have hremaining : (State.start (String.ofList cs) table).remaining = cs := by simp
    rw [← hremaining] at h hrefused
    exact complains_usage.message_unique (State.wellFormed_start _ table) h hrefused

/-- There is no choice as to where the whitespace in front ends, for no word starts with
whitespace. -/
theorem begins_iff {first : Char} {others : List Char} (hword : word.toList = first :: others)
    (hfirst : Text.isWhitespace first = false) :
    Begins word name line ↔ ∃ front back,
      line.toList.dropWhile Text.isWhitespace = front ++ back ∧ Opening word name front back := by
  have hsplit := List.takeWhile_append_dropWhile (p := Text.isWhitespace) (l := line.toList)
  constructor
  · rintro ⟨indent, front, back, hline, hindent, hopening⟩
    refine ⟨front, back, ?_, hopening⟩
    have hrun : Text.IsRun Text.isWhitespace indent (front ++ back) := by
      refine ⟨hindent, fun next hnext => ?_⟩
      obtain ⟨rest, hrest⟩ := hopening.starts back
      rw [← hrest, hword] at hnext
      obtain rfl : first = next := by simpa using hnext
      exact hfirst
    have htake := Text.isRun_iff.1 hrun
    rw [← hline] at htake
    rw [htake] at hsplit
    exact List.append_cancel_left (hsplit.trans hline)
  · rintro ⟨front, back, hrest, hopening⟩
    refine ⟨line.toList.takeWhile Text.isWhitespace, front, back, ?_,
      (Text.isRun_takeWhile Text.isWhitespace line.toList).1, hopening⟩
    rw [← hrest, hsplit]

/-- Where the statement parser stops before the end, the line goes on behind a statement. -/
theorem goesOn_of_success {r : Success NameTable Statement}
    (h : statement (.start line table) = .success r) (hend : r.state.isAtEnd = false) :
    GoesOn line table (.trailing r.state) where
  kind := rfl
  split := by
    obtain ⟨front, back, table', hline, hstate, hnext, hprefix⟩ :=
      statement_stops (State.wellFormed_start line table) h
    rw [State.remaining_start] at hline
    rw [hstate] at hend ⊢
    cases back with
    | nil => simp [State.isAtEnd, State.after, State.start, hline] at hend
    | cons c cs =>
      refine ⟨front, c, cs, hline, ?_, hnext c rfl, hprefix⟩
      simp [Failure.position, Failure.trailing, State.position, Position.offset_locate, State.after,
        State.start]

/-- As long as no line feed has been consumed, the position is told by the number of characters. -/
theorem position_skip_start {front back : List Char} (h : line.toList = front ++ back)
    (hfront : '\n' ∉ front) (table : NameTable) :
    ((State.start line table).skip front).position =
      { offset := Text.byteLength front, line := 1, column := front.length + 1 } := by
  have hs := State.wellFormed_start line table
  rw [← State.remaining_start line table] at h
  rw [State.position_of_wellFormed (State.wellFormed_skip hs h), State.consumed_skip hs h,
    State.consumed_start, List.nil_append, Position.after_of_not_mem hfront]

/-- Where the statement parser fails, the line does not start with a statement. -/
theorem noStatement_of_failure (hline : '\n' ∉ line.toList)
    (h : statement (.start line table) = .failure e) : NoStatement line table e := by
  obtain ⟨first, second, hlet, huse, rfl⟩ := statement_fails (State.wellFormed_start line table) h
  rw [State.remaining_start] at hlet huse ⊢
  change Flaw "use" (undeclared table) _ second at huse
  have hword : "use".toList = ['u', 's', 'e'] := rfl
  have hposition := position_skip_start List.takeWhile_append_dropWhile.symm
    (fun hmem => hline ((List.takeWhile_sublist Text.isWhitespace).subset hmem)) table
  refine ⟨rfl, ?_, ?_, rfl, first, second, by simp [Failure.exhausted], ?_, ?_,
    hlet.missing_word huse, fun name => ?_⟩
  · rw [Failure.position, Failure.exhausted, hposition]
  · rw [Failure.position, Failure.exhausted, hposition, Nat.add_comm]
  · exact hlet.not_mem_newline (by decide) (by simp)
  · exact huse.not_mem_newline (by decide) fun _ _ => not_mem_newline_of_undeclared
  · rw [huse.eq_undeclared_iff, begins_iff hword (by decide)]

/-- A line that is rejected either goes on behind a statement or does not start with one, and is
reported accordingly. A mismatch is never reported as such. -/
theorem errors_tell_places (hline : '\n' ∉ line.toList)
    (h : statement.parseWith line table = .failure e) :
    Xor (GoesOn line table e) (NoStatement line table e) ∧ e.kind ≠ .mismatch := by
  rcases parseWith_eq_failure_iff.1 h with hfails | ⟨r, hstops, hend, rfl⟩
  · have hnone := noStatement_of_failure hline hfails
    refine ⟨.inr ⟨hnone, fun hgoesOn => ?_⟩, fun hkind => ?_⟩
    · exact FailureKind.noConfusion (hgoesOn.kind.symm.trans hnone.kind)
    · exact FailureKind.noConfusion (hkind.symm.trans hnone.kind)
  · have hgoesOn := goesOn_of_success hstops hend
    refine ⟨.inl ⟨hgoesOn, fun hnone => ?_⟩, fun hkind => ?_⟩
    · exact FailureKind.noConfusion (hgoesOn.kind.symm.trans hnone.kind)
    · exact FailureKind.noConfusion (hkind.symm.trans hgoesOn.kind)

/-- What follows a statement is reported at the byte where it starts, and a use of a name that is
not declared is reported behind the two spaces in front of it. -/
theorem errors_tell_places_twice :
    GoesOn "let é; é" .empty
        (.trailing { text := "let é; é", index := 8, context := NameTable.empty.insert "é" }) ∧
      NoStatement "  use y" .empty
        (.exhausted ["Expected \"let\"", "Use of undeclared name y"]
          { text := "  use y", index := 2, context := .empty }) := by
  have hmore : statement.parseWith "let é; é" .empty = .failure
      (.trailing { text := "let é; é", index := 8, context := NameTable.empty.insert "é" }) := rfl
  have hearly : statement.parseWith "  use y" .empty = .failure
      (.exhausted ["Expected \"let\"", "Use of undeclared name y"]
        { text := "  use y", index := 2, context := .empty }) := rfl
  constructor
  · rcases (errors_tell_places (by decide) hmore).1 with ⟨hgoesOn, -⟩ | ⟨hnone, -⟩
    · exact hgoesOn
    · exact FailureKind.noConfusion hnone.kind
  · rcases (errors_tell_places (by decide) hearly).1 with ⟨hgoesOn, -⟩ | ⟨hnone, -⟩
    · exact FailureKind.noConfusion hgoesOn.kind
    · exact hnone

end ContextParser.Session
