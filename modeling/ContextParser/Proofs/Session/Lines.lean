import ContextParser.Parser.Whole
import ContextParser.Proofs.CharacterClasses
import ContextParser.Proofs.Readings
import ContextParser.Session.Language

/-!
# The lines of the two languages

A statement is a word and a name with whitespace between, then a semicolon, and whitespace wherever
else it may stand (`Says`). A greeting is a word and a heart, where nothing may stand but whitespace
between (`Greets`). The parsers know nothing of these forms: a keyword demands that no letter or
digit follows it, whitespace and names take all that they can get, and a name starts with a letter.
That the two agree rests on whitespace being apart from letters and digits (`gap_iff`) and on the
semicolon being neither (`reads_clause`); no valid line is lost by taking too much.
-/

set_option autoImplicit false

namespace ContextParser.Session

open ContextParser.Parser

/-- Nothing but whitespace. -/
def IsBlank (cs : List Char) : Prop :=
  ∀ c ∈ cs, Text.isWhitespace c = true

instance (cs : List Char) : Decidable (IsBlank cs) :=
  decidable_of_iff (cs.all Text.isWhitespace = true) List.all_eq_true

/-- A letter and any letters and digits after it. -/
def IsName (cs : List Char) : Prop :=
  ∃ x xs, cs = x :: xs ∧ Text.isAlphabetic x = true ∧ ∀ c ∈ xs, Text.isAlphanumeric c = true

/-- The line is a word, some whitespace, a name and a semicolon, with any whitespace in front,
behind and before the semicolon. -/
def Says (word name line : String) : Prop :=
  ∃ indent gap space tail, line.toList =
      indent ++ (word.toList ++ (gap ++ (name.toList ++ (space ++ ';' :: tail)))) ∧
    IsBlank indent ∧ IsBlank gap ∧ gap ≠ [] ∧ IsName name.toList ∧ IsBlank space ∧ IsBlank tail

/-- The line is the word and the heart of a greeting, with any whitespace between. -/
def Greets (line : String) : Prop :=
  ∃ gap, line.toList = "fzoo".toList ++ (gap ++ "<3".toList) ∧ IsBlank gap

/-- A word, some whitespace, and all of a name. -/
def Opening (word name : String) (front back : List Char) : Prop :=
  ∃ gap, front = word.toList ++ (gap ++ name.toList) ∧ IsBlank gap ∧ gap ≠ [] ∧
    IsName name.toList ∧ ∀ c ∈ back.head?, Text.isAlphanumeric c = false

/-- A word, some whitespace, a name and a semicolon, with as much whitespace behind as there is. -/
def Clause (word name : String) (front back : List Char) : Prop :=
  ∃ gap space tail, front =
      word.toList ++ (gap ++ (name.toList ++ (space ++ ';' :: tail))) ∧
    IsBlank gap ∧ gap ≠ [] ∧ IsName name.toList ∧ IsBlank space ∧
    Text.IsRun Text.isWhitespace tail back

/-- Where whitespace leads to a character that is no letter or digit, no letter or digit comes
next. -/
theorem isAlphanumeric_next {gap rest : List Char} {c : Char} (hgap : IsBlank gap)
    (hc : Text.isAlphanumeric c = false) :
    ∀ next ∈ (gap ++ c :: rest).head?, Text.isAlphanumeric next = false := by
  intro next hnext
  cases gap with
  | nil =>
    obtain rfl : c = next := by simpa using hnext
    exact hc
  | cons y ys =>
    obtain rfl : y = next := by simpa using hnext
    exact Text.isAlphanumeric_of_isWhitespace (hgap y List.mem_cons_self)

/-- What the parsers ask of the characters between a keyword and the end of a name is that they are
whitespace and a name: whatever the parsers leave open about where one part ends and the next
begins, the classes of characters settle. -/
theorem gap_iff {last : Char} (hlast : Text.isAlphanumeric last = true)
    {gap name rest : List Char} :
    ((∀ next ∈ (gap ++ (name ++ rest)).head?,
        Text.isAlphanumeric last ≠ Text.isAlphanumeric next) ∧
      Text.IsRun Text.isWhitespace gap (name ++ rest) ∧
      ∃ x xs, name = x :: xs ∧ Text.isAlphabetic x = true ∧
        Text.IsRun Text.isAlphanumeric xs rest) ↔
    IsBlank gap ∧ gap ≠ [] ∧ IsName name ∧ ∀ c ∈ rest.head?, Text.isAlphanumeric c = false := by
  constructor
  · rintro ⟨hnext, ⟨hgap, -⟩, ⟨x, xs, rfl, hx, hxs, hrest⟩⟩
    refine ⟨hgap, ?_, ⟨x, xs, rfl, hx, hxs⟩, hrest⟩
    rintro rfl
    have hne := hnext x rfl
    rw [hlast, Text.isAlphanumeric_of_isAlphabetic hx] at hne
    exact hne rfl
  · rintro ⟨hgap, hne, ⟨x, xs, rfl, hx, hxs⟩, hrest⟩
    refine ⟨?_, ⟨hgap, ?_⟩, ⟨x, xs, rfl, hx, hxs, hrest⟩⟩
    · obtain ⟨y, ys, rfl⟩ := List.exists_cons_of_ne_nil hne
      intro next hnext
      obtain rfl : y = next := by simpa using hnext
      rw [hlast, Text.isAlphanumeric_of_isWhitespace (hgap y List.mem_cons_self)]
      exact Bool.noConfusion
    · intro next hnext
      obtain rfl : x = next := by simpa using hnext
      exact Text.isWhitespace_of_isAlphabetic hx

section

variable {word : String} {last : Char} {name : Parser NameTable String}
  {allowed : NameTable → String → Prop}

/-- The part of a statement up to the end of its name, where the parser of the name may ask more of
it. -/
theorem reads_opening (hlast : word.toList.getLast? = some last)
    (hletter : Text.isAlphanumeric last = true)
    (hname : Reads name fun table front back value table' =>
      (value = String.ofList front ∧ ∃ x xs, front = x :: xs ∧ Text.isAlphabetic x = true ∧
        Text.IsRun Text.isAlphanumeric xs back) ∧ allowed table value ∧ table' = table) :
    Reads (seqRight (spaces (keyword word)) name) fun table front back value table' =>
      Opening word value front back ∧ allowed table value ∧ table' = table := by
  refine ((reads_spaces (reads_keyword hlast)).seqRight hname).congr ?_
  intro table front back value table'
  constructor
  · rintro ⟨_, letters, _, _, rfl, ⟨_, gap, rfl, ⟨⟨⟨rfl, -⟩, hnext⟩, rfl⟩, hgap⟩,
      ⟨rfl, hletters⟩, hallowed, rfl⟩
    obtain ⟨hblank, hne, hisName, hend⟩ := (gap_iff hletter).1 ⟨hnext, hgap, hletters⟩
    rw [← String.toList_ofList (l := letters)] at hisName
    refine ⟨⟨gap, ?_, hblank, hne, hisName, hend⟩, hallowed, rfl⟩
    rw [String.toList_ofList, List.append_assoc]
  · rintro ⟨⟨gap, rfl, hgap⟩, hallowed, rfl⟩
    obtain ⟨hnext, hrun, hletters⟩ := (gap_iff hletter).2 hgap
    refine ⟨word.toList ++ gap, value.toList, _, _, (List.append_assoc ..).symm,
      ⟨word.toList, gap, rfl, ⟨⟨⟨rfl, rfl⟩, hnext⟩, rfl⟩, hrun⟩,
      ⟨String.ofList_toList.symm, hletters⟩, hallowed, rfl⟩

/-- What the two statements have in common. -/
theorem reads_clause (hlast : word.toList.getLast? = some last)
    (hletter : Text.isAlphanumeric last = true)
    (hname : Reads name fun table front back value table' =>
      (value = String.ofList front ∧ ∃ x xs, front = x :: xs ∧ Text.isAlphabetic x = true ∧
        Text.IsRun Text.isAlphanumeric xs back) ∧ allowed table value ∧ table' = table) :
    Reads (seqLeft (seqLeft (seqRight (spaces (keyword word)) name) whitespace)
        (spaces (literal ";")))
      fun table front back value table' =>
        Clause word value front back ∧ allowed table value ∧ table' = table := by
  have hsemicolon : ";".toList = [';'] := rfl
  refine (((reads_opening hlast hletter hname).seqLeft reads_whitespace).seqLeft
    (reads_spaces (reads_literal ";"))).congr ?_
  intro table front back value table'
  constructor
  · rintro ⟨_, _, _, _, rfl, ⟨_, space, _, _, rfl,
        ⟨⟨gap, rfl, hgap, hne, hisName, -⟩, hallowed, rfl⟩, ⟨hspace, -⟩, rfl⟩,
      _, tail, rfl, ⟨⟨rfl, -⟩, rfl⟩, htail⟩
    refine ⟨⟨gap, space, tail, ?_, hgap, hne, hisName, hspace, htail⟩, hallowed, rfl⟩
    simp only [hsemicolon, List.append_assoc, List.cons_append, List.nil_append]
  · rintro ⟨⟨gap, space, tail, rfl, hgap, hne, hisName, hspace, htail⟩, hallowed, rfl⟩
    refine ⟨word.toList ++ (gap ++ value.toList) ++ space, ";".toList ++ tail, _, _, ?_,
      ⟨word.toList ++ (gap ++ value.toList), space, (), _, rfl,
        ⟨⟨gap, rfl, hgap, hne, hisName, isAlphanumeric_next hspace (by decide)⟩, hallowed, rfl⟩,
        ⟨hspace, ?_⟩, rfl⟩,
      _, tail, rfl, ⟨⟨rfl, rfl⟩, rfl⟩, htail⟩
    · simp only [hsemicolon, List.append_assoc, List.cons_append, List.nil_append]
    · intro next hnext
      obtain rfl : ';' = next := by simpa [hsemicolon] using hnext
      decide

end

/-- A declaration reads a clause with its own word, and puts the name into the table. -/
theorem reads_declaration :
    Reads declaration fun table front back value table' =>
      ∃ name, Clause "let" name front back ∧ value = .declare name ∧
        table' = table.insert name := by
  have hlast : "let".toList.getLast? = some 't' := rfl
  have hname : Reads (identifier : Parser NameTable String) fun table front back value table' =>
      (value = String.ofList front ∧ ∃ x xs, front = x :: xs ∧ Text.isAlphabetic x = true ∧
        Text.IsRun Text.isAlphanumeric xs back) ∧ True ∧ table' = table :=
    reads_identifier.congr fun _ _ _ _ _ => by rw [true_and]
  have hshape : seqRight (spaces (keyword "let")) (spaces identifier) =
      (seqLeft (seqRight (spaces (keyword "let")) identifier) whitespace :
        Parser NameTable String) :=
    seqRight_seqLeft _ _ _
  rw [declaration, hshape]
  refine (((reads_clause hlast (by decide) hname).modifyContext NameTable.insert).map
    Statement.declare).congr ?_
  intro table front back value table'
  constructor
  · rintro ⟨name, rfl, _, ⟨hclause, -, rfl⟩, rfl⟩
    exact ⟨name, hclause, rfl, rfl⟩
  · rintro ⟨name, hclause, rfl, rfl⟩
    exact ⟨name, rfl, table, ⟨hclause, trivial, rfl⟩, rfl⟩

/-- A name of the table is let through, and nothing is consumed. -/
theorem reads_declared (name : String) :
    Reads (declared name) fun table front _ value table' =>
      value = name ∧ front = [] ∧ name ∈ table ∧ table' = table := by
  refine ((reads_assertion (name ∈ ·) _).map fun _ => name).congr ?_
  intro table front back value table'
  constructor
  · rintro ⟨-, h⟩
    exact h
  · intro h
    exact ⟨(), h⟩

/-- A name of the table, and all of it. -/
theorem reads_declaredName :
    Reads (bind identifier declared) fun table front back value table' =>
      (value = String.ofList front ∧ ∃ x xs, front = x :: xs ∧ Text.isAlphabetic x = true ∧
        Text.IsRun Text.isAlphanumeric xs back) ∧ value ∈ table ∧ table' = table := by
  refine (reads_identifier.bind reads_declared).congr ?_
  intro table front back value table'
  constructor
  · rintro ⟨letters, _, _, _, rfl, ⟨hletters, rfl⟩, rfl, rfl, hmem, rfl⟩
    rw [List.append_nil]
    exact ⟨hletters, hmem, rfl⟩
  · rintro ⟨hletters, hmem, rfl⟩
    exact ⟨front, [], value, table', (List.append_nil _).symm, ⟨hletters, rfl⟩, rfl, rfl, hmem,
      rfl⟩

/-- A use reads a clause with its own word and a name of the table, and leaves the table as it
is. -/
theorem reads_usage :
    Reads usage fun table front back value table' =>
      ∃ name, Clause "use" name front back ∧ name ∈ table ∧ value = .use name ∧
        table' = table := by
  have hlast : "use".toList.getLast? = some 'e' := rfl
  refine ((reads_clause hlast (by decide) reads_declaredName).map Statement.use).congr ?_
  intro table front back value table'
  constructor
  · rintro ⟨name, rfl, hclause, hmem, rfl⟩
    exact ⟨name, hclause, hmem, rfl, rfl⟩
  · rintro ⟨name, hclause, hmem, rfl, rfl⟩
    exact ⟨name, rfl, hclause, hmem, rfl⟩

/-- A statement reads all whitespace in front, and then either of the two clauses. -/
theorem reads_statement :
    Reads statement fun table front back value table' =>
      ∃ indent rest, front = indent ++ rest ∧
        Text.IsRun Text.isWhitespace indent (rest ++ back) ∧
        ((∃ name, Clause "let" name rest back ∧ value = .declare name ∧
            table' = table.insert name) ∨
          ∃ name, Clause "use" name rest back ∧ name ∈ table ∧ value = .use name ∧
            table' = table) := by
  have hchoice := reads_declaration.any_pair reads_usage fun {_ _ _ _ _ _ _ _ _} => by
    rintro ⟨name, ⟨gap, space, tail, rfl, -⟩, -⟩ ⟨name', ⟨gap', space', tail', rfl, -⟩, -⟩ hsame
    have hheads : 'l' = 'u' := (List.cons.inj hsame).1
    exact absurd hheads (by decide)
  refine (reads_whitespace.seqRight hchoice).congr ?_
  intro table front back value table'
  constructor
  · rintro ⟨indent, rest, -, _, hfront, ⟨hindent, rfl⟩, hrest⟩
    exact ⟨indent, rest, hfront, hindent, hrest⟩
  · rintro ⟨indent, rest, hfront, hindent, hrest⟩
    exact ⟨indent, rest, (), table, hfront, ⟨hindent, rfl⟩, hrest⟩

/-- On a whole line there is no choice as to where the whitespace in front ends, for no word starts
with whitespace. -/
theorem says_iff {word name line : String} {first : Char} {others : List Char}
    (hword : word.toList = first :: others) (hfirst : Text.isWhitespace first = false) :
    Says word name line ↔ ∃ indent rest, line.toList = indent ++ rest ∧
      Text.IsRun Text.isWhitespace indent (rest ++ []) ∧ Clause word name rest [] := by
  constructor
  · rintro ⟨indent, gap, space, tail, hline, hindent, hgap, hne, hname, hspace, htail⟩
    refine ⟨indent, _, hline, ⟨hindent, ?_⟩,
      ⟨gap, space, tail, rfl, hgap, hne, hname, hspace, htail, by simp⟩⟩
    intro next hnext
    rw [hword] at hnext
    obtain rfl : first = next := by simpa using hnext
    exact hfirst
  · rintro ⟨indent, rest, hline, ⟨hindent, -⟩,
      ⟨gap, space, tail, rfl, hgap, hne, hname, hspace, htail, -⟩⟩
    exact ⟨indent, gap, space, tail, hline, hindent, hgap, hne, hname, hspace, htail⟩

/-- The outcomes of the statement parser on a line are the lines that declare a name and the lines
that use one of the table. -/
theorem parseWith_statement_iff {line : String} {table : NameTable}
    {r : Success NameTable Statement} :
    statement.parseWith line table = .success r ↔
      ∃ name, (Says "let" name line ∧
          r = { state := { text := line, index := Text.byteLength line.toList,
                           context := table.insert name },
                value := .declare name }) ∨
        (Says "use" name line ∧ name ∈ table ∧
          r = { state := { text := line, index := Text.byteLength line.toList, context := table },
                value := .use name }) := by
  have hlet : "let".toList = ['l', 'e', 't'] := rfl
  have huse : "use".toList = ['u', 's', 'e'] := rfl
  rw [reads_statement.parseWith_success_iff]
  simp only [says_iff hlet (by decide), says_iff huse (by decide)]
  constructor
  · rintro ⟨value, table', ⟨indent, rest, hline, hindent, ⟨name, hclause, rfl, rfl⟩ |
      ⟨name, hclause, hmem, rfl, rfl⟩⟩, rfl⟩
    · exact ⟨name, .inl ⟨⟨indent, rest, hline, hindent, hclause⟩, rfl⟩⟩
    · exact ⟨name, .inr ⟨⟨indent, rest, hline, hindent, hclause⟩, hmem, rfl⟩⟩
  · rintro ⟨name, ⟨⟨indent, rest, hline, hindent, hclause⟩, rfl⟩ |
      ⟨⟨indent, rest, hline, hindent, hclause⟩, hmem, rfl⟩⟩
    · exact ⟨_, _, ⟨indent, rest, hline, hindent, .inl ⟨name, hclause, rfl, rfl⟩⟩, rfl⟩
    · exact ⟨_, _, ⟨indent, rest, hline, hindent, .inr ⟨name, hclause, hmem, rfl, rfl⟩⟩, rfl⟩

/-! ## Greetings -/

/-- A greeting reads a word and a heart with any whitespace between, if no letter or digit
follows. -/
theorem reads_greeting :
    Reads greeting fun _ front back value _ =>
      ∃ gap, front = "fzoo".toList ++ (gap ++ "<3".toList) ∧ IsBlank gap ∧ value = ("fzoo", "<3") ∧
        ∀ next ∈ back.head?, Text.isAlphanumeric next = false := by
  have hword : "fzoo".toList.getLast? = some 'o' := rfl
  have hheart : "<3".toList.getLast? = some '3' := rfl
  have hletter : Text.isAlphanumeric 'o' = true := by decide
  have hdigit : Text.isAlphanumeric '3' = true := by decide
  have hcons : "<3".toList = ['<', '3'] := rfl
  refine (((reads_keyword hword).seqLeft reads_whitespace).zipWith (reads_keyword hheart)
    Prod.mk).congr ?_
  intro table front back value table'
  simp only [hletter, hdigit, ne_eq, Bool.true_eq, Bool.not_eq_true]
  constructor
  · rintro ⟨_, _, _, _, _, rfl, ⟨word, gap, _, _, rfl, ⟨⟨⟨rfl, rfl⟩, -⟩, -⟩, ⟨hgap, -⟩, -⟩,
      ⟨⟨⟨rfl, rfl⟩, hnext⟩, -⟩, rfl⟩
    exact ⟨gap, List.append_assoc _ _ _, hgap, rfl, hnext⟩
  · rintro ⟨gap, rfl, hgap, rfl, hnext⟩
    refine ⟨"fzoo".toList ++ gap, "<3".toList, "fzoo", "<3", (), (List.append_assoc _ _ _).symm,
      ⟨"fzoo".toList, gap, (), (), rfl, ⟨⟨⟨rfl, rfl⟩, ?_⟩, trivial⟩, ⟨hgap, ?_⟩, trivial⟩,
      ⟨⟨⟨rfl, rfl⟩, hnext⟩, trivial⟩, rfl⟩
    · rw [hcons]
      exact isAlphanumeric_next hgap (by decide)
    · intro next hhead
      obtain rfl : '<' = next := by simpa [hcons] using hhead
      decide

/-- A line is accepted as a greeting exactly if it is one, and then to its end. -/
theorem parse_greeting_iff {line : String} {r : Success Unit (String × String)} :
    greeting.parse line = .success r ↔ Greets line ∧
      r = { state := { text := line, index := Text.byteLength line.toList, context := () },
            value := ("fzoo", "<3") } := by
  rw [Parser.parse, reads_greeting.parseWith_success_iff]
  constructor
  · rintro ⟨value, _, ⟨gap, hline, hgap, rfl, -⟩, rfl⟩
    exact ⟨⟨gap, hline, hgap⟩, rfl⟩
  · rintro ⟨⟨gap, hline, hgap⟩, rfl⟩
    exact ⟨_, (), ⟨gap, hline, hgap, rfl, by simp⟩, rfl⟩

/-- The two parsers accept the lines of their languages, with what the lines say, and reject all
others. -/
theorem lines_accepted (line : String) (table : NameTable) :
    (∀ name, (∃ s, statement.parseWith line table =
        .success { state := s, value := .declare name }) ↔ Says "let" name line) ∧
    (∀ name, (∃ s, statement.parseWith line table =
        .success { state := s, value := .use name }) ↔ Says "use" name line ∧ name ∈ table) ∧
    ((∃ e, statement.parseWith line table = .failure e) ↔
      ∀ name, ¬Says "let" name line ∧ ¬(Says "use" name line ∧ name ∈ table)) ∧
    (∀ words, (∃ s, greeting.parse line = .success { state := s, value := words }) ↔
      words = ("fzoo", "<3") ∧ Greets line) ∧
    ((∃ e, greeting.parse line = .failure e) ↔ ¬Greets line) := by
  refine ⟨?_, ?_, ?_, ?_, ?_⟩
  · intro name
    simp [parseWith_statement_iff]
  · intro name
    simp [parseWith_statement_iff]
  · rw [reads_statement.parseWith_failure_iff]
    simp only [parseWith_statement_iff]
    constructor
    · intro hnone name
      constructor
      · intro hsaid
        exact hnone ⟨_, name, .inl ⟨hsaid, rfl⟩⟩
      · rintro ⟨hsaid, hmem⟩
        exact hnone ⟨_, name, .inr ⟨hsaid, hmem, rfl⟩⟩
    · rintro hnone ⟨r, name, ⟨hsaid, -⟩ | ⟨hsaid, hmem, -⟩⟩
      · exact (hnone name).1 hsaid
      · exact (hnone name).2 ⟨hsaid, hmem⟩
  · intro words
    simp only [parse_greeting_iff]
    constructor
    · rintro ⟨s, hgreets, hr⟩
      exact ⟨congrArg Success.value hr, hgreets⟩
    · rintro ⟨rfl, hgreets⟩
      exact ⟨_, hgreets, rfl⟩
  · rw [Parser.parse, reads_greeting.parseWith_failure_iff]
    refine not_congr ⟨?_, ?_⟩
    · rintro ⟨r, hr⟩
      exact (parse_greeting_iff.1 hr).1
    · intro hgreets
      exact ⟨_, parse_greeting_iff.2 ⟨hgreets, rfl⟩⟩

end ContextParser.Session
