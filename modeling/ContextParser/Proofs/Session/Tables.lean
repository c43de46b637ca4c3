import ContextParser.Proofs.Session.Lines
import ContextParser.Session.Run

/-!
# The tables of a session

A session hands one table on from line to line. What it holds is told by the lines alone: the names
that they declare, whatever other lines there are, in whichever order they come, and however the
session prints them. All of this rests on what a single line does to a table (`mem_step_iff`).
-/

set_option autoImplicit false

namespace ContextParser.Session

open ContextParser.Parser

/-- The table that lines leave behind, from a given table on. -/
def tableFrom (options : Options) (table : NameTable) (lines : List String) : NameTable :=
  lines.foldl (fun table line => (step options table line).2) table

/-- The table that the first lines of a session leave behind. -/
def tableAfter (options : Options) (lines : List String) (count : Nat) : NameTable :=
  tableFrom options .empty (lines.take count)

/-- What is printed for a line is told by the line and the table that the lines before it leave. -/
theorem getElem?_runFrom (options : Options) (table : NameTable) (lines : List String) (k : Nat) :
    (runFrom options table lines)[k]? =
      lines[k]?.map fun line => (step options (tableFrom options table (lines.take k)) line).1 := by
  induction lines generalizing table k with
  | nil => rfl
  | cons first others ih =>
    cases k with
    | zero => rfl
    | succ k =>
      rw [runFrom, List.getElem?_cons_succ, List.getElem?_cons_succ, ih, List.take_succ_cons]
      rfl

/-- One more line takes the table one step on. -/
theorem tableAfter_succ (options : Options) {lines : List String} {k : Nat} {line : String}
    (hline : lines[k]? = some line) :
    tableAfter options lines (k + 1) = (step options (tableAfter options lines k) line).2 := by
  rw [tableAfter, tableFrom, List.take_add_one, hline, List.foldl_append]
  rfl

/-! ## One line -/

section

variable {line name : String} {table : NameTable}

/-- A line that declares a name is accepted with any table and adds the name to it. -/
theorem parseWith_of_says_let (table : NameTable) (h : Says "let" name line) :
    statement.parseWith line table = .success
      { state := { text := line, index := Text.byteLength line.toList,
                   context := table.insert name },
        value := .declare name } :=
  parseWith_statement_iff.2 ⟨name, .inl ⟨h, rfl⟩⟩

/-- A line that uses a name of the table is accepted and leaves the table as it is. -/
theorem parseWith_of_says_use (h : Says "use" name line) (hmem : name ∈ table) :
    statement.parseWith line table = .success
      { state := { text := line, index := Text.byteLength line.toList, context := table },
        value := .use name } :=
  parseWith_statement_iff.2 ⟨name, .inr ⟨h, hmem, rfl⟩⟩

/-- A line is accepted as the declaration of a name exactly if it declares that name, whatever the
table is. -/
theorem parseWith_declare_iff (table : NameTable) :
    (∃ s, statement.parseWith line table = .success { state := s, value := .declare name }) ↔
      Says "let" name line := by
  constructor
  · rintro ⟨s, hs⟩
    obtain ⟨name', ⟨hsaid, hr⟩ | ⟨-, -, hr⟩⟩ := parseWith_statement_iff.1 hs
    · obtain rfl := Statement.declare.inj (congrArg Success.value hr)
      exact hsaid
    · exact Statement.noConfusion (congrArg Success.value hr)
  · intro hsaid
    exact ⟨_, parseWith_of_says_let table hsaid⟩

/-- A use is accepted exactly with its name in the table. The parser would find any other reading of
the line as well with more names in the table, but it finds one reading only. -/
theorem accepts_use_iff (h : Says "use" name line) :
    (∃ r, statement.parseWith line table = .success r) ↔ name ∈ table := by
  have hmore : name ∈ table.insert name := NameTable.mem_insert.2 (.inl rfl)
  have huse := parseWith_of_says_use h hmore
  constructor
  · rintro ⟨r, hr⟩
    obtain ⟨name', ⟨hlet, -⟩ | ⟨huse', hmem, -⟩⟩ := parseWith_statement_iff.1 hr
    · have hdeclare := parseWith_of_says_let (table.insert name) hlet
      simp [huse] at hdeclare
    · have hmore' : name' ∈ table.insert name := NameTable.mem_insert.2 (.inr hmem)
      rw [parseWith_of_says_use huse' hmore'] at huse
      obtain rfl : name' = name := by simpa using huse
      exact hmem
  · intro hmem
    exact ⟨_, parseWith_of_says_use h hmem⟩

/-- Either way of printing leaves the table that the statement has made, or the one before if there
is no statement. -/
theorem step_declarations (strict : Bool) (table : NameTable) (line : String) :
    (step { language := .declarations, strict } table line).2 =
      match statement.parseWith line table with
      | .success r => r.state.context
      | _ => table := by
  cases strict with
  | false => rfl
  | true =>
    simp only [step, declareLine, if_true, Parser.runWith]
    cases statement.parseWith line table with
    | success r => rfl
    | failure e => rfl
    | fault c => rfl

/-- A rejected line leaves the table as it is. -/
theorem step_of_failure (strict : Bool) {e : Failure NameTable}
    (h : statement.parseWith line table = .failure e) :
    (step { language := .declarations, strict } table line).2 = table := by
  rw [step_declarations, h]

/-- An accepted use leaves the table as it is. -/
theorem step_of_use (strict : Bool) {s : State NameTable}
    (h : statement.parseWith line table = .success { state := s, value := .use name }) :
    (step { language := .declarations, strict } table line).2 = table := by
  rw [step_declarations, h]
  obtain ⟨name', ⟨-, hr⟩ | ⟨-, -, hr⟩⟩ := parseWith_statement_iff.1 h
  · exact Statement.noConfusion (congrArg Success.value hr)
  · exact congrArg (·.state.context) hr

/-- A line adds the name that it declares, and no other line changes the table. -/
theorem mem_step_iff (strict : Bool) :
    name ∈ (step { language := .declarations, strict } table line).2 ↔
      name ∈ table ∨ Says "let" name line := by
  rw [← parseWith_declare_iff table]
  cases hrun : statement.parseWith line table with
  | failure e =>
    rw [step_of_failure strict hrun]
    simp
  | fault c => exact absurd hrun (reads_statement.parseWith_ne_fault line table c)
  | success r =>
    obtain ⟨name', ⟨-, rfl⟩ | ⟨-, -, rfl⟩⟩ := parseWith_statement_iff.1 hrun
    · rw [step_declarations, hrun]
      simp [NameTable.mem_insert, or_comm, eq_comm]
    · rw [step_of_use strict hrun]
      simp

end

/-! ## All lines -/

/-- From any table on, lines add the names that they declare. -/
theorem mem_tableFrom_iff (strict : Bool) {table : NameTable} {lines : List String}
    {name : String} :
    name ∈ tableFrom { language := .declarations, strict } table lines ↔
      name ∈ table ∨ ∃ line ∈ lines, Says "let" name line := by
  induction lines generalizing table with
  | nil => simp [tableFrom]
  | cons first others ih =>
    rw [tableFrom, List.foldl_cons, ← tableFrom, ih, mem_step_iff, or_assoc]
    simp only [List.mem_cons, exists_eq_or_imp]

/-- A name is in the table exactly if one of the lines before declares it. -/
theorem mem_tableAfter_iff (strict : Bool) {lines : List String} {count : Nat} {name : String} :
    name ∈ tableAfter { language := .declarations, strict } lines count ↔
      ∃ j < count, ∃ line, lines[j]? = some line ∧ Says "let" name line := by
  rw [tableAfter, mem_tableFrom_iff]
  simp only [NameTable.not_mem_empty, false_or, List.mem_iff_getElem?, List.getElem?_take]
  constructor
  · rintro ⟨line, ⟨j, hj⟩, hsaid⟩
    split at hj
    · next hlt => exact ⟨j, hlt, line, hj, hsaid⟩
    · simp at hj
  · rintro ⟨j, hlt, line, hj, hsaid⟩
    exact ⟨line, ⟨j, by rw [if_pos hlt, hj]⟩, hsaid⟩

/-- At any point of a session, the table holds exactly the names that the lines so far declare. A
use is accepted exactly after an accepted declaration of its name. Uses and rejected lines leave the
table as it is. The table at the end is the same for all sessions with the same lines, in any order
and any number. This is the table that decides what is printed for the lines. -/
theorem tables_hold_declared_names (strict : Bool) (lines : List String) :
    (∀ count name, name ∈ tableAfter { language := .declarations, strict } lines count ↔
      ∃ j < count, ∃ line, lines[j]? = some line ∧ Says "let" name line) ∧
    (∀ k line name, lines[k]? = some line → Says "use" name line →
      ((∃ r, statement.parseWith line
          (tableAfter { language := .declarations, strict } lines k) = .success r) ↔
        ∃ j < k, ∃ earlier s, lines[j]? = some earlier ∧
          statement.parseWith earlier
            (tableAfter { language := .declarations, strict } lines j) =
              .success { state := s, value := .declare name })) ∧
    (∀ k line, lines[k]? = some line →
      ((∃ e, statement.parseWith line
          (tableAfter { language := .declarations, strict } lines k) = .failure e) ∨
        ∃ s name, statement.parseWith line
          (tableAfter { language := .declarations, strict } lines k) =
            .success { state := s, value := .use name }) →
      tableAfter { language := .declarations, strict } lines (k + 1) =
        tableAfter { language := .declarations, strict } lines k) ∧
    (∀ others : List String, (∀ line, line ∈ lines ↔ line ∈ others) →
      tableAfter { language := .declarations, strict } lines lines.length =
        tableAfter { language := .declarations, strict } others others.length) ∧
    (∀ k, (run { language := .declarations, strict } lines)[k]? =
      lines[k]?.map fun line => (step { language := .declarations, strict }
        (tableAfter { language := .declarations, strict } lines k) line).1) := by
  refine ⟨fun _ _ => mem_tableAfter_iff strict, ?_, ?_, ?_, fun k => getElem?_runFrom _ _ lines k⟩
  -- the earlier line declares the name whatever the table was when it came
  · intro k line name hline huse
    rw [accepts_use_iff huse, mem_tableAfter_iff]
    constructor
    · rintro ⟨j, hj, earlier, hearlier, hsaid⟩
      exact ⟨j, hj, earlier, _, hearlier, parseWith_of_says_let _ hsaid⟩
    · rintro ⟨j, hj, earlier, s, hearlier, hs⟩
      exact ⟨j, hj, earlier, hearlier, (parseWith_declare_iff _).1 ⟨s, hs⟩⟩
  · intro k line hline hrun
    rw [tableAfter_succ _ hline]
    obtain ⟨e, he⟩ | ⟨s, name, hs⟩ := hrun
    · exact step_of_failure strict he
    · exact step_of_use strict hs
  · intro others hsame
    refine NameTable.eq_of_same_members fun name => ?_
    rw [tableAfter, tableAfter, List.take_length, List.take_length, mem_tableFrom_iff,
      mem_tableFrom_iff]
    simp only [hsame]

/-- A use is rejected before the declaration and accepted after it, and neither shows in the
table. -/
theorem tables_hold_declared_names_repeatedUse :
    (¬∃ r, statement.parseWith "use n;" (tableAfter { language := .declarations, strict := true }
      ["use n;", "let n ;", "use n;"] 0) = .success r) ∧
    (∃ r, statement.parseWith "use n;" (tableAfter { language := .declarations, strict := true }
      ["use n;", "let n ;", "use n;"] 2) = .success r) ∧
    tableAfter { language := .declarations, strict := true } ["use n;", "let n ;", "use n;"] 3 =
      tableAfter { language := .declarations, strict := true } ["use n;", "let n ;"] 2 := by
  have hname : IsName "n".toList := ⟨'n', [], rfl, by decide, by simp⟩
  have huse : Says "use" "n" "use n;" :=
    ⟨[], [' '], [], [], rfl, by decide, by decide, by decide, hname, by decide, by decide⟩
  have hlet : Says "let" "n" "let n ;" :=
    ⟨[], [' '], [' '], [], rfl, by decide, by decide, by decide, hname, by decide, by decide⟩
  obtain ⟨htable, haccepted, hunchanged, hsame, -⟩ :=
    tables_hold_declared_names true ["use n;", "let n ;", "use n;"]
  refine ⟨?_, ?_, ?_⟩
  · rw [haccepted 0 "use n;" "n" rfl huse]
    simp
  · rw [haccepted 2 "use n;" "n" rfl huse]
    exact ⟨1, by decide, "let n ;", _, rfl, parseWith_of_says_let _ hlet⟩
  · exact hsame ["use n;", "let n ;"] (by simp [or_comm])

end ContextParser.Session
