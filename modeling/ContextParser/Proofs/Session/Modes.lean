import ContextParser.Proofs.Session.Tables
import ContextParser.Proofs.WholeTexts

/-!
# The two ways of printing

A strict session prints values and messages, a plain one whole outcomes. They run lines through
different entry points, and hand the table on in different ways: a strict session keeps the context
that it gets with the value, a plain one looks into the state of a success. Still they make the same
of all lines (`modes_agree`). A line that is accepted by one is accepted by the other, with the same
value, and what the strict session prints of a rejected one is the message and the place of the
failure that the plain session shows.

What a line is depends on the table before it, so the two tables have to stay the same over all
lines; this is the induction, and it goes line by line (`tableFrom_strict`).
-/

set_option autoImplicit false

namespace ContextParser.Session

/-- What two sessions make of one line, of which the plain one has the first outcome and prints the
first text, and the strict one has the second outcome and prints the second text. Both have accepted
the line with the same value, or both have rejected it with the same kind, message and place. The
plain one shows its whole outcome: the success behind `Ok` or the failure behind `Err`. -/
def SameReport {C α : Type} [Inspect C] [Inspect α] (describe : α → String)
    (plain : Outcome (Failure C) (Success C α)) (strict : Outcome ParseError α)
    (shown told : Option String) : Prop :=
  shown = some (inspect plain) ∧
    ((∃ r, plain = .success r ∧ strict = .success r.value ∧
        shown = some ("Ok(" ++ inspect r ++ ")") ∧ told = some (describe r.value)) ∨
      ∃ e, plain = .failure e ∧
        strict = .failure { kind := e.kind, message := e.message, position := e.state.position } ∧
        shown = some ("Err(" ++ inspect e ++ ")") ∧
        told = some ("error: " ++ (e.message ++ " at " ++ e.state.position.display)))

/-- What is reported of a mapped value is the description of the value that it is mapped to. -/
theorem report_map {α β : Type} (describe : β → String) (f : α → β) (o : Outcome ParseError α) :
    report describe (o.map f) = report (fun a => describe (f a)) o := by
  cases o <;> rfl

/-- A parser that never breaks off has the same outcome in both modes. -/
theorem sameReport_parseWith {C α : Type} [Inspect C] [Inspect α] (describe : α → String)
    {p : Parser C α} {line : String} {context : C}
    (hp : ∀ c, p.parseWith line context ≠ .fault c) :
    SameReport describe (p.parseWith line context) ((p.runWith line context).map Prod.fst)
      (some (inspect (p.parseWith line context)))
      (some (report describe ((p.runWith line context).map Prod.fst))) := by
  refine ⟨rfl, ?_⟩
  cases hrun : p.parseWith line context with
  | success r =>
    have hstrict : p.runWith line context = .success (r.value, r.state.context) := by
      rw [Parser.runWith, hrun]
      rfl
    rw [hstrict]
    exact .inl ⟨r, rfl, rfl, rfl, rfl⟩
  | failure e =>
    have hstrict : p.runWith line context = .failure e.toParseError := by
      rw [Parser.runWith, hrun]
      rfl
    rw [hstrict]
    exact .inr ⟨e, rfl, rfl, rfl, rfl⟩
  | fault c => exact absurd hrun (hp c)

/-! ## Tables -/

/-- The table behind a line is the same in both modes, if the one before it is. -/
theorem step_strict (language : Language) (strict : Bool) (table : NameTable) (line : String) :
    (step { language, strict } table line).2 =
      (step { language, strict := false } table line).2 := by
  cases language with
  | greeting => rfl
  | declarations => rw [step_declarations, step_declarations]

/-- From any table on, all lines leave the same table in both modes. -/
theorem tableFrom_strict (language : Language) (strict : Bool) (table : NameTable)
    (lines : List String) :
    tableFrom { language, strict } table lines =
      tableFrom { language, strict := false } table lines := by
  induction lines generalizing table with
  | nil => rfl
  | cons line lines ih =>
    have hstep := step_strict language strict table line
    rw [tableFrom, List.foldl_cons, hstep]
    exact ih _

/-! ## Lines -/

/-- A plain session shows the whole outcome of a greeting. -/
theorem greetLine_false (line : String) :
    greetLine false line = inspect (greeting.parseWith line ()) := by
  rw [greetLine, if_neg Bool.false_ne_true]
  rfl

/-- A strict session reports the value or the error of a greeting. -/
theorem greetLine_true (line : String) :
    greetLine true line = report inspect ((greeting.runWith line ()).map Prod.fst) := by
  rw [← Parser.run_eq_map_runWith]
  rfl

/-- A plain session shows the whole outcome of a statement. -/
theorem declareLine_false (table : NameTable) (line : String) :
    (declareLine false table line).1 = inspect (statement.parseWith line table) := by
  rw [declareLine, if_neg Bool.false_ne_true]

/-- A strict session reports the statement or the error. -/
theorem declareLine_true (table : NameTable) (line : String) :
    (declareLine true table line).1 =
      report Statement.display ((statement.runWith line table).map Prod.fst) := by
  rw [report_map]
  rfl

/-- A strict session and a plain one over the same lines have the same table before every line, and
make the same of every line: both accept it with the same value, or both reject it, and then the
strict one prints behind the word error what is told about the failure that the plain one shows. -/
theorem modes_agree (lines : List String) :
    (∀ language count,
      tableAfter { language, strict := true } lines count =
        tableAfter { language, strict := false } lines count) ∧
    (∀ (k : Nat) (line : String), lines[k]? = some line →
      SameReport inspect (greeting.parse line) (greeting.run line)
        (run { language := .greeting, strict := false } lines)[k]?
        (run { language := .greeting, strict := true } lines)[k]?) ∧
    ∀ (k : Nat) (line : String), lines[k]? = some line →
      SameReport Statement.display
        (statement.parseWith line
          (tableAfter { language := .declarations, strict := false } lines k))
        ((statement.runWith line
          (tableAfter { language := .declarations, strict := true } lines k)).map Prod.fst)
        (run { language := .declarations, strict := false } lines)[k]?
        (run { language := .declarations, strict := true } lines)[k]? := by
  have htables : ∀ language count,
      tableAfter { language, strict := true } lines count =
        tableAfter { language, strict := false } lines count :=
    fun language count => tableFrom_strict language true .empty (lines.take count)
  refine ⟨htables, fun k line hline => ?_, fun k line hline => ?_⟩
  · have hreport := sameReport_parseWith inspect (reads_greeting.parseWith_ne_fault line ())
    rw [run, run, getElem?_runFrom, getElem?_runFrom, hline]
    simp only [Option.map_some, step, greetLine_false, greetLine_true, Parser.run_eq_map_runWith]
    exact hreport
  · have htable := htables .declarations k
    have hfault := reads_statement.parseWith_ne_fault line
      (tableAfter { language := .declarations, strict := false } lines k)
    have hreport := sameReport_parseWith Statement.display hfault
    rw [run, run, getElem?_runFrom, getElem?_runFrom, hline, htable]
    simp only [Option.map_some, step, declareLine_false, declareLine_true]
    rw [← tableAfter, ← tableAfter, htable]
    exact hreport

/-- A name that is used too early, then declared and used. -/
def earlyUse : List String := ["use n;", "let n;", " use n ;"]

/-- The early use is rejected in both modes, with the failure shown in one and told in the other,
and the late use is accepted. -/
theorem modes_agree_earlyUse :
    (tableAfter { language := .declarations, strict := true } earlyUse 2 =
      tableAfter { language := .declarations, strict := false } earlyUse 2) ∧
    (run { language := .declarations, strict := true } earlyUse)[0]? =
      some "error: Expected \"let\"\nUse of undeclared name n at 1:1" ∧
    (run { language := .declarations, strict := false } earlyUse)[0]? =
      some (inspect (statement.parseWith "use n;" .empty)) ∧
    (run { language := .declarations, strict := false } earlyUse)[0]? =
      some ("Err(" ++
        inspect (Failure.exhausted ["Expected \"let\"", "Use of undeclared name n"]
          (.start "use n;" NameTable.empty)) ++ ")") ∧
    (run { language := .declarations, strict := true } earlyUse)[2]? = some "used n" := by
  obtain ⟨htables, -, hlines⟩ := modes_agree earlyUse
  obtain ⟨hshown, hearly⟩ := hlines 0 "use n;" rfl
  obtain ⟨-, hlate⟩ := hlines 2 " use n ;" rfl
  have hrejected : statement.parseWith "use n;" .empty =
      .failure { kind := .exhaustedAlternatives,
                 message := "Expected \"let\"\nUse of undeclared name n",
                 state := .start "use n;" .empty } := rfl
  have haccepted : statement.parseWith " use n ;" (NameTable.empty.insert "n") =
      .success { state := { text := " use n ;", index := 8, context := .insert .empty "n" },
                 value := .use "n" } := rfl
  obtain ⟨r, hr, -⟩ | ⟨e, he, -, herr, htold⟩ := hearly
  · cases hrejected.symm.trans hr
  obtain rfl := Outcome.failure.inj (hrejected.symm.trans he)
  refine ⟨htables .declarations 2, htold, hshown, herr, ?_⟩
  obtain ⟨r, hr, -, -, htold⟩ | ⟨e, he, -⟩ := hlate
  · obtain rfl := Outcome.success.inj (haccepted.symm.trans hr)
    exact htold
  · cases haccepted.symm.trans he

end ContextParser.Session
