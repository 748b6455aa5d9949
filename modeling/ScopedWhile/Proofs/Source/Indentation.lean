import ScopedWhile.Proofs.Language.Renaming
import ScopedWhile.Proofs.Number.Reading
import ScopedWhile.Proofs.Source.Layout

/-!
The layout of source text is compositional. A writer adds the text of each statement and returns to
the depth it had; the text of a block is that of its statements with four blanks before each line,
so that every line is indented by four blanks for each block around it.
-/

namespace ScopedWhile

-----------------------------------------------------------------------------------------
-- Lines
-----------------------------------------------------------------------------------------

namespace Text

/-- The lines of a text, each with the line end that closes it. -/
def lines : List Char → List (List Char)
  | [] => []
  | c :: rest =>
      if c = '\n' then [c] :: lines rest
      else match lines rest with
        | [] => [[c]]
        | line :: more => (c :: line) :: more

/-- The text with four blanks before each of its lines. -/
def indented (text : String) : String :=
  String.ofList ((lines text.toList).flatMap fun line => "    ".toList ++ line)

/-- The text has no line end. -/
def OneLine (text : String) : Prop :=
  '\n' ∉ text.toList

instance (text : String) : Decidable (OneLine text) :=
  inferInstanceAs (Decidable (¬ _))

/-- A text is on one line if its parts are. -/
theorem oneLine_append {text more : String}
    : OneLine (text ++ more) ↔ OneLine text ∧ OneLine more := by
  simp only [OneLine, String.toList_append, List.mem_append, not_or]

/-- The first line of a text ends at the first line end. -/
theorem lines_row {row : List Char} (oneLine : '\n' ∉ row) (rest : List Char)
    : lines (row ++ '\n' :: rest) = (row ++ ['\n']) :: lines rest := by
  induction row with
  | nil => simp [lines]
  | cons c row ih =>
      have inner : lines (row ++ '\n' :: rest) = (row ++ ['\n']) :: lines rest :=
        ih fun member => oneLine (List.mem_cons_of_mem c member)
      have visible : c ≠ '\n' := fun same => oneLine (same ▸ List.mem_cons_self)
      simp [lines, inner, visible]

end Text

open Text (OneLine)

/-- A line of source text: the depth of the block it stands in and what follows its indentation. -/
structure Row where
  depth : Nat
  content : String

namespace Row

def text (row : Row) : String :=
  Writer.row row.depth row.content

def textAll (rows : List Row) : String :=
  String.join (rows.map text)

def deeper (row : Row) : Row :=
  { row with depth := row.depth + 1 }

@[simp]
theorem textAll_nil
    : textAll [] = "" :=
  rfl

/-- The text of rows is that of the first one and then of the others. -/
@[simp]
theorem textAll_cons (row : Row) (rows : List Row)
    : textAll (row :: rows) = Writer.row row.depth row.content ++ textAll rows := by
  simp [textAll, text]

/-- Rows in two parts have the texts of the parts. -/
@[simp]
theorem textAll_append (rows more : List Row)
    : textAll (rows ++ more) = textAll rows ++ textAll more := by
  simp [textAll]

theorem toList_text (row : Row)
    : row.text.toList = List.replicate (4 * row.depth) ' ' ++ row.content.toList ++ ['\n'] := by
  simp only [text, Writer.row, Writer.indentation, String.toList_append, String.toList_ofList]
  rfl

/-- A deeper row has four more blanks in front. -/
theorem text_deeper (row : Row)
    : row.deeper.text.toList = "    ".toList ++ row.text.toList := by
  have blanks : List.replicate (4 * (row.depth + 1)) ' '
      = "    ".toList ++ List.replicate (4 * row.depth) ' ' := by
    rw [Nat.mul_add, Nat.add_comm, ← List.replicate_append_replicate]
    rfl
  rw [toList_text, toList_text]
  show List.replicate (4 * (row.depth + 1)) ' ' ++ row.content.toList ++ ['\n'] = _
  rw [blanks]
  simp only [List.append_assoc]

/-- Rows on one line each are the lines of their text, by induction over the rows. -/
theorem lines_textAll {rows : List Row} (oneLine : ∀ row ∈ rows, OneLine row.content)
    : Text.lines (textAll rows).toList = rows.map fun row => row.text.toList := by
  induction rows with
  | nil => rfl
  | cons row rows ih =>
      have rest := ih fun other member => oneLine other (List.mem_cons_of_mem row member)
      have first : '\n' ∉ List.replicate (4 * row.depth) ' ' ++ row.content.toList := by
        rw [List.mem_append, not_or]
        exact ⟨fun blank => absurd (List.eq_of_mem_replicate blank) (by decide),
          oneLine row List.mem_cons_self⟩
      rw [textAll_cons, ← text, String.toList_append, toList_text, List.append_assoc,
        List.singleton_append, Text.lines_row first, rest, List.map_cons, toList_text]

/-- Putting four blanks before each line moves every row one block deeper. -/
theorem indented_textAll {rows : List Row} (oneLine : ∀ row ∈ rows, OneLine row.content)
    : Text.indented (textAll rows) = textAll (rows.map deeper) := by
  apply String.toList_inj.mp
  rw [Text.indented, String.toList_ofList, lines_textAll oneLine, textAll, String.toList_join,
    List.map_map, List.flatMap_map, List.flatMap_map]
  simp only [Function.comp_apply, text_deeper]

end Row

-----------------------------------------------------------------------------------------
-- The rows of statements
-----------------------------------------------------------------------------------------

mutual

def Stmt.rows (depth : Nat) : Stmt → List Row
  | .declare name value => [⟨depth, "let " ++ name ++ " = " ++ value.source 0 ++ ";"⟩]
  | .assign name value => [⟨depth, name ++ " = " ++ value.source 0 ++ ";"⟩]
  | .branch test whenTrue whenFalse =>
      ⟨depth, "if (" ++ test.source 0 ++ ") \x7b"⟩
        :: (Stmt.rowsAll (depth + 1) whenTrue
          ++ (if whenFalse.isEmpty then []
            else ⟨depth, "\x7d else \x7b"⟩ :: Stmt.rowsAll (depth + 1) whenFalse)
          ++ [⟨depth, "\x7d"⟩])
  | .loop test body =>
      ⟨depth, "while (" ++ test.source 0 ++ ") \x7b"⟩
        :: (Stmt.rowsAll (depth + 1) body ++ [⟨depth, "\x7d"⟩])
  | .print value => [⟨depth, "print(" ++ value.source 0 ++ ");"⟩]

def Stmt.rowsAll (depth : Nat) : List Stmt → List Row
  | [] => []
  | stmt :: rest => stmt.rows depth ++ Stmt.rowsAll depth rest

end

mutual

/-- The layout of a statement is the text of its rows, by recursion over the statement. -/
theorem Stmt.layout_eq_rows (depth : Nat)
    : (stmt : Stmt) → stmt.layout depth = Row.textAll (stmt.rows depth)
  | .declare name value | .assign name value | .print value => by
      simp [Stmt.layout, Stmt.rows]
  | .loop test body => by
      simp [Stmt.layout, Stmt.rows, Stmt.layoutAll_eq_rows (depth + 1) body, String.append_assoc]
  | .branch test whenTrue whenFalse => by
      cases whenFalse with
      | nil =>
          simp [Stmt.layout, Stmt.rows, Stmt.layoutAll_eq_rows (depth + 1) whenTrue,
            String.append_assoc]
      | cons first rest =>
          simp [Stmt.layout, Stmt.rows, Stmt.layoutAll_eq_rows (depth + 1) whenTrue,
            Stmt.layoutAll_eq_rows (depth + 1) (first :: rest), String.append_assoc]

/-- The layout of statements is the text of their rows. -/
theorem Stmt.layoutAll_eq_rows (depth : Nat)
    : (stmts : List Stmt) → Stmt.layoutAll depth stmts = Row.textAll (Stmt.rowsAll depth stmts)
  | [] => rfl
  | stmt :: rest => by
      rw [Stmt.layoutAll, Stmt.rowsAll, Row.textAll_append, Stmt.layout_eq_rows depth stmt,
        Stmt.layoutAll_eq_rows depth rest]

end

mutual

/-- A statement one block deeper has the same rows, one block deeper. -/
theorem Stmt.rows_succ (depth : Nat)
    : (stmt : Stmt) → stmt.rows (depth + 1) = (stmt.rows depth).map Row.deeper
  | .declare name value | .assign name value | .print value => rfl
  | .loop test body => by
      simp [Stmt.rows, Stmt.rowsAll_succ (depth + 1) body, Row.deeper]
  | .branch test whenTrue whenFalse => by
      cases whenFalse with
      | nil => simp [Stmt.rows, Stmt.rowsAll_succ (depth + 1) whenTrue, Row.deeper]
      | cons first rest =>
          simp [Stmt.rows, Stmt.rowsAll_succ (depth + 1) whenTrue,
            Stmt.rowsAll_succ (depth + 1) (first :: rest), Row.deeper]

/-- Statements one level deeper have deeper rows. -/
theorem Stmt.rowsAll_succ (depth : Nat)
    : (stmts : List Stmt)
      → Stmt.rowsAll (depth + 1) stmts = (Stmt.rowsAll depth stmts).map Row.deeper
  | [] => rfl
  | stmt :: rest => by
      rw [Stmt.rowsAll, Stmt.rowsAll, List.map_append, Stmt.rows_succ depth stmt,
        Stmt.rowsAll_succ depth rest]

end

-----------------------------------------------------------------------------------------
-- Names without line ends
-----------------------------------------------------------------------------------------

/-- The source of an expression is on one line if its names are, by induction over the expression.
-/
theorem Expr.oneLine_source {e : Expr} (names : ∀ name ∈ e.names, OneLine name) (context : Nat)
    : OneLine (e.source context) := by
  induction e generalizing context with
  | boolean b =>
      have word : OneLine (Value.boolean b).display := by cases b <;> decide
      exact word
  | number x => exact Number.not_mem_display (by decide) x
  | var name => exact names name (List.mem_singleton.mpr rfl)
  | binary op left right ihLeft ihRight =>
      rw [Expr.names, List.forall_mem_append] at names
      have symbol : OneLine op.symbol := by cases op <;> decide
      have blank : OneLine " " := by decide
      have inner : OneLine (left.source op.precedence ++ " " ++ op.symbol ++ " "
          ++ right.source (op.precedence + 1)) := by
        simp only [Text.oneLine_append]
        exact ⟨⟨⟨⟨ihLeft names.1 _, blank⟩, symbol⟩, blank⟩, ihRight names.2 _⟩
      rw [Expr.source]
      split
      · rw [Text.oneLine_append, Text.oneLine_append]
        exact ⟨⟨by decide, inner⟩, by decide⟩
      · exact inner

/-- An expression between two texts of one line. -/
theorem Expr.oneLine_between {e : Expr} (names : ∀ name ∈ e.names, OneLine name)
    {opening closing : String} (start : OneLine opening) (finish : OneLine closing)
    : OneLine (opening ++ e.source 0 ++ closing) := by
  rw [Text.oneLine_append, Text.oneLine_append]
  exact ⟨⟨start, e.oneLine_source names 0⟩, finish⟩

mutual

/-- The rows of a statement are on one line each if its names are. -/
theorem Stmt.oneLine_rows (depth : Nat)
    : (stmt : Stmt) → (∀ name ∈ stmt.names, OneLine name)
      → ∀ row ∈ stmt.rows depth, OneLine row.content
  | .declare name value, names => by
      rw [Stmt.names, List.forall_mem_cons] at names
      have start : OneLine ("let " ++ name ++ " = ") := by
        rw [Text.oneLine_append, Text.oneLine_append]
        exact ⟨⟨by decide, names.1⟩, by decide⟩
      exact List.forall_mem_singleton.mpr (Expr.oneLine_between names.2 start (by decide))
  | .assign name value, names => by
      rw [Stmt.names, List.forall_mem_cons] at names
      have start : OneLine (name ++ " = ") := Text.oneLine_append.mpr ⟨names.1, by decide⟩
      exact List.forall_mem_singleton.mpr (Expr.oneLine_between names.2 start (by decide))
  | .print value, names =>
      List.forall_mem_singleton.mpr (Expr.oneLine_between names (by decide) (by decide))
  | .loop test body, names => by
      rw [Stmt.names, List.forall_mem_append] at names
      have closing : OneLine "\x7d" := by decide
      rw [Stmt.rows, List.forall_mem_cons, List.forall_mem_append, List.forall_mem_singleton]
      exact ⟨Expr.oneLine_between names.1 (by decide) (by decide),
        Stmt.oneLine_rowsAll (depth + 1) body names.2, closing⟩
  | .branch test whenTrue whenFalse, names => by
      rw [Stmt.names, List.forall_mem_append, List.forall_mem_append] at names
      have whenTrueRows := Stmt.oneLine_rowsAll (depth + 1) whenTrue names.2.1
      have whenFalseRows := Stmt.oneLine_rowsAll (depth + 1) whenFalse names.2.2
      have between : OneLine "\x7d else \x7b" := by decide
      have closing : OneLine "\x7d" := by decide
      rw [Stmt.rows, List.forall_mem_cons, List.forall_mem_append, List.forall_mem_append,
        List.forall_mem_singleton]
      refine ⟨Expr.oneLine_between names.1 (by decide) (by decide), ⟨whenTrueRows, ?_⟩, closing⟩
      split
      · exact fun row member => absurd member List.not_mem_nil
      · exact List.forall_mem_cons.mpr ⟨between, whenFalseRows⟩

/-- The rows of statements are on one line each if their names are. -/
theorem Stmt.oneLine_rowsAll (depth : Nat)
    : (stmts : List Stmt) → (∀ name ∈ Stmt.namesAll stmts, OneLine name)
      → ∀ row ∈ Stmt.rowsAll depth stmts, OneLine row.content
  | [], _ => fun row member => absurd member List.not_mem_nil
  | stmt :: rest, names => by
      rw [Stmt.namesAll, List.forall_mem_append] at names
      rw [Stmt.rowsAll, List.forall_mem_append]
      exact ⟨Stmt.oneLine_rows depth stmt names.1, Stmt.oneLine_rowsAll depth rest names.2⟩

end

-----------------------------------------------------------------------------------------
-- Texts of statements and of their blocks
-----------------------------------------------------------------------------------------

/-- The layout of statements in two parts is that of the parts. -/
theorem Stmt.layoutAll_append (depth : Nat) (stmts more : List Stmt)
    : Stmt.layoutAll depth (stmts ++ more)
      = Stmt.layoutAll depth stmts ++ Stmt.layoutAll depth more := by
  induction stmts with
  | nil => exact String.empty_append.symm
  | cons stmt rest ih => rw [List.cons_append, layoutAll, ih, layoutAll, String.append_assoc]

/-- The source of statements is the sources of each, one after another. -/
theorem Stmt.sourceAll_eq_join (stmts : List Stmt)
    : Stmt.sourceAll stmts = String.join (stmts.map Stmt.source) := by
  rw [sourceAll_eq_layout]
  induction stmts with
  | nil => rfl
  | cons stmt rest ih =>
      rw [layoutAll, List.map_cons, String.join_cons, ih, source_eq_layout]

/-- The text of a block is that of its statements with every line indented. -/
theorem Stmt.layoutAll_one {stmts : List Stmt} (names : ∀ name ∈ Stmt.namesAll stmts, OneLine name)
    : Stmt.layoutAll 1 stmts = Text.indented (Stmt.sourceAll stmts) := by
  rw [sourceAll_eq_layout, layoutAll_eq_rows, layoutAll_eq_rows, rowsAll_succ,
    Row.indented_textAll (oneLine_rowsAll 0 stmts names)]

theorem Writer.row_zero (text : String)
    : Writer.row 0 text = text ++ "\n" := by
  have none : Writer.indentation 0 = "" := rfl
  rw [Writer.row, none, String.empty_append]

/-- The source of a loop is that of its body, indented, between header and brace. -/
theorem Stmt.source_loop {test : Expr} {body : List Stmt}
    (names : ∀ name ∈ (Stmt.loop test body).names, OneLine name)
    : (Stmt.loop test body).source
      = "while (" ++ test.source 0 ++ ") \x7b" ++ "\n"
        ++ Text.indented (Stmt.sourceAll body)
        ++ "\x7d\n" := by
  rw [Stmt.names, List.forall_mem_append] at names
  rw [source_eq_layout, layout, layoutAll_one names.2, Writer.row_zero, Writer.row_zero]
  rfl

/-- The source of a branch is those of its parts, indented, between header, else and brace. -/
theorem Stmt.source_branch {test : Expr} {whenTrue whenFalse : List Stmt}
    (names : ∀ name ∈ (Stmt.branch test whenTrue whenFalse).names, OneLine name)
    : (Stmt.branch test whenTrue whenFalse).source
      = "if (" ++ test.source 0 ++ ") \x7b" ++ "\n"
        ++ Text.indented (Stmt.sourceAll whenTrue)
        ++ (if whenFalse.isEmpty then ""
          else "\x7d else \x7b\n" ++ Text.indented (Stmt.sourceAll whenFalse))
        ++ "\x7d\n" := by
  rw [Stmt.names, List.forall_mem_append, List.forall_mem_append] at names
  rw [source_eq_layout, layout, layoutAll_one names.2.1, layoutAll_one names.2.2, Writer.row_zero,
    Writer.row_zero, Writer.row_zero]
  rfl

-----------------------------------------------------------------------------------------
-- Calls of a writer
-----------------------------------------------------------------------------------------

namespace Writer

/-- What a writer can be asked to write: a statement or statements in a row. -/
inductive Call where
  | statement (stmt : Stmt)
  | statements (stmts : List Stmt)

/-- The statements that a call writes. -/
def Call.written : Call → List Stmt
  | .statement stmt => [stmt]
  | .statements stmts => stmts

def perform (w : Writer) : Call → Writer × Option SourceError
  | .statement stmt => w.writeNode (.stmt stmt)
  | .statements stmts => w.writeNodes (stmts.map .stmt)

/-- Makes calls one after the other, up to the first that is refused. -/
def performAll (w : Writer) : List Call → Writer × Option SourceError
  | [] => (w, none)
  | call :: rest => match w.perform call with
    | (w, none) => w.performAll rest
    | refused => refused

/-- Every call adds the layout of what it writes at the depth of the writer. -/
theorem perform_eq (w : Writer) (call : Call)
    : w.perform call = (w.add (Stmt.layoutAll w.depth call.written), none) := by
  cases call with
  | statement stmt =>
      rw [perform, writeNode, Stmt.write_eq_add, Call.written, Stmt.layoutAll, Stmt.layoutAll,
        String.append_empty]
  | statements stmts => rw [perform, writeNodes_stmts, Stmt.writeAll_eq_add, Call.written]

/-- Calls add the text of what they write, in the block that the writer is in. -/
theorem performAll_eq (w : Writer) (calls : List Call)
    : w.performAll calls = (w.add (Stmt.layoutAll w.depth (calls.flatMap Call.written)), none) := by
  induction calls generalizing w with
  | nil => rw [performAll, List.flatMap_nil, Stmt.layoutAll, add_empty]
  | cons call rest ih =>
      rw [performAll, perform_eq]
      dsimp only
      rw [ih, depth_add, add_add, List.flatMap_cons, Stmt.layoutAll_append]

/-- Calls leave a writer in the block it was in, and one outside all blocks with the texts of all
statements added. The text of statements is that of the first ones and then that of the others. A
branch or loop whose names have no line ends is a line, its blocks with every line indented and the
lines that close them, and so every line of a text is indented by four blanks for each block around
it. -/
theorem layout_is_compositional
    : (∀ (w : Writer) (calls : List Call),
        (w.performAll calls).2 = none
        ∧ (w.performAll calls).1.depth = w.depth
        ∧ (w.depth = 0 → (w.performAll calls).1.text
          = w.text ++ String.join ((calls.flatMap Call.written).map Stmt.source)))
      ∧ (∀ stmts : List Stmt,
        SourceTarget.source (.nodes (stmts.map .stmt)) = .ok (Stmt.sourceAll stmts))
      ∧ (∀ stmts more : List Stmt,
        Stmt.sourceAll (stmts ++ more) = Stmt.sourceAll stmts ++ Stmt.sourceAll more)
      ∧ (∀ (test : Expr) (body : List Stmt),
        (∀ name ∈ (Stmt.loop test body).names, OneLine name)
        → (Stmt.loop test body).source
          = "while (" ++ test.source 0 ++ ") \x7b" ++ "\n"
            ++ Text.indented (Stmt.sourceAll body)
            ++ "\x7d\n")
      ∧ (∀ (test : Expr) (whenTrue whenFalse : List Stmt),
        (∀ name ∈ (Stmt.branch test whenTrue whenFalse).names, OneLine name)
        → (Stmt.branch test whenTrue whenFalse).source
          = "if (" ++ test.source 0 ++ ") \x7b" ++ "\n"
            ++ Text.indented (Stmt.sourceAll whenTrue)
            ++ (if whenFalse.isEmpty then ""
              else "\x7d else \x7b\n" ++ Text.indented (Stmt.sourceAll whenFalse))
            ++ "\x7d\n")
      ∧ ∀ stmts : List Stmt, (∀ name ∈ Stmt.namesAll stmts, OneLine name)
        → Text.lines (Stmt.sourceAll stmts).toList
          = (Stmt.rowsAll 0 stmts).map fun row =>
              List.replicate (4 * row.depth) ' ' ++ row.content.toList ++ ['\n'] := by
  refine ⟨?_, SourceTarget.source_stmts, ?_, fun _ _ => Stmt.source_loop,
    fun _ _ _ => Stmt.source_branch, ?_⟩
  · intro w calls
    rw [performAll_eq]
    refine ⟨rfl, rfl, ?_⟩
    intro outside
    rw [outside, ← Stmt.sourceAll_eq_layout, Stmt.sourceAll_eq_join]
    rfl
  · intro stmts more
    rw [Stmt.sourceAll_eq_layout, Stmt.sourceAll_eq_layout, Stmt.sourceAll_eq_layout,
      Stmt.layoutAll_append]
  · intro stmts names
    rw [Stmt.sourceAll_eq_layout, Stmt.layoutAll_eq_rows,
      Row.lines_textAll (Stmt.oneLine_rowsAll 0 stmts names)]
    simp only [Row.toList_text]

end Writer

/-- A loop with a branch that has no second part in it. -/
def Stmt.countdown : Stmt :=
  .loop (.binary .greater (.var "x") (.number (.zero false)))
    [.branch (.var "stop") [.assign "x" (.number (.zero false))] [],
      .assign "x" (.binary .sub (.var "x") (.number (.ofInt 1)))]

/-- Two calls write a loop with a branch inside, and a print after it. -/
theorem Writer.layout_is_compositional_countdown
    : let calls : List Writer.Call := [.statement .countdown, .statements [.print (.var "x")]]
      let body := "    if (stop) \x7b\n        x = 0;\n    \x7d\n    x = x - 1;\n"
      (∀ name ∈ Stmt.countdown.names, OneLine name)
      ∧ (({} : Writer).performAll calls).1.depth = 0
      ∧ (({} : Writer).performAll calls).1.text
        = "" ++ String.join ([.countdown, .print (.var "x")].map Stmt.source)
      ∧ Stmt.countdown.source = "while (x > 0) \x7b\n" ++ body ++ "\x7d\n" := by
  obtain ⟨calls, -, -, loop, -, -⟩ := Writer.layout_is_compositional
  have names : ∀ name ∈ Stmt.countdown.names, OneLine name := by decide
  obtain ⟨-, depth, text⟩ :=
    calls {} [.statement .countdown, .statements [.print (.var "x")]]
  refine ⟨names, depth, text rfl, (loop _ _ names).trans ?_⟩
  decide +kernel

end ScopedWhile
