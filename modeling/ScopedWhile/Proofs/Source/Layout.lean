import ScopedWhile.Source.Target

/-!
The layout of statements as a function of their depth. Writing a statement adds its layout to the
text of the writer and leaves the depth as it was.
-/

namespace ScopedWhile

/-- One line of a block of the given depth. -/
def Writer.row (depth : Nat) (text : String) : String :=
  Writer.indentation depth ++ text ++ "\n"

mutual

def Stmt.layout (depth : Nat) : Stmt → String
  | .declare name value => Writer.row depth ("let " ++ name ++ " = " ++ value.source 0 ++ ";")
  | .assign name value => Writer.row depth (name ++ " = " ++ value.source 0 ++ ";")
  | .branch test whenTrue whenFalse =>
      Writer.row depth ("if (" ++ test.source 0 ++ ") \x7b")
        ++ Stmt.layoutAll (depth + 1) whenTrue
        ++ (if whenFalse.isEmpty then ""
          else Writer.row depth "\x7d else \x7b" ++ Stmt.layoutAll (depth + 1) whenFalse)
        ++ Writer.row depth "\x7d"
  | .loop test body =>
      Writer.row depth ("while (" ++ test.source 0 ++ ") \x7b")
        ++ Stmt.layoutAll (depth + 1) body ++ Writer.row depth "\x7d"
  | .print value => Writer.row depth ("print(" ++ value.source 0 ++ ");")

def Stmt.layoutAll (depth : Nat) : List Stmt → String
  | [] => ""
  | stmt :: rest => stmt.layout depth ++ Stmt.layoutAll depth rest

end

namespace Writer

/-- A writer with more text, in the same block. -/
def add (w : Writer) (text : String) : Writer :=
  { w with text := w.text ++ text }

/-- A line adds a row at the depth of the writer. -/
theorem line_eq_add (w : Writer) (text : String)
    : w.line text = w.add (row w.depth text) := by
  simp only [line, add, row, String.append_assoc]

/-- Texts are added one after the other. -/
@[simp]
theorem add_add (w : Writer) (text more : String)
    : (w.add text).add more = w.add (text ++ more) := by
  simp only [add, String.append_assoc]

@[simp]
theorem add_empty (w : Writer)
    : w.add "" = w := by
  simp only [add, String.append_empty]

@[simp]
theorem depth_add (w : Writer) (text : String)
    : (w.add text).depth = w.depth :=
  rfl

/-- What is added inside of an indentation is added. -/
@[simp]
theorem dedent_add_indent (w : Writer) (text : String)
    : (w.indent.add text).dedent = w.add text :=
  rfl

@[simp]
theorem depth_indent (w : Writer)
    : w.indent.depth = w.depth + 1 :=
  rfl

end Writer

mutual

/-- Writing a statement adds its layout at the depth of the writer, by recursion over the statement.
-/
theorem Stmt.write_eq_add (w : Writer)
    : (stmt : Stmt) → stmt.write w = w.add (stmt.layout w.depth)
  | .declare name value => w.line_eq_add _
  | .assign name value => w.line_eq_add _
  | .print value => w.line_eq_add _
  | .loop test body => by
      simp [Stmt.write, Stmt.layout, Stmt.writeAll_eq_add _ body, Writer.line_eq_add,
        String.append_assoc]
  | .branch test whenTrue whenFalse => by
      cases whenFalse with
      | nil =>
          simp [Stmt.write, Stmt.layout, Stmt.writeAll_eq_add _ whenTrue, Writer.line_eq_add,
            String.append_assoc]
      | cons first rest =>
          simp [Stmt.write, Stmt.layout, Stmt.writeAll_eq_add _ whenTrue,
            Stmt.writeAll_eq_add _ (first :: rest), Writer.line_eq_add, String.append_assoc]

/-- Writing statements adds their layout at the depth of the writer. -/
theorem Stmt.writeAll_eq_add (w : Writer)
    : (stmts : List Stmt) → Stmt.writeAll stmts w = w.add (Stmt.layoutAll w.depth stmts)
  | [] => w.add_empty.symm
  | stmt :: rest => by
      rw [Stmt.writeAll, Stmt.write_eq_add w stmt, Stmt.writeAll_eq_add _ rest, Writer.add_add,
        Writer.depth_add, Stmt.layoutAll]

end

/-- However a statement is laid out, its last line is ended. -/
theorem Stmt.exists_layout_eq (depth : Nat) (stmt : Stmt)
    : ∃ text, stmt.layout depth = text ++ "\n" := by
  cases stmt with
  | declare name value | assign name value | print value => exact ⟨_, rfl⟩
  | branch condition whenTrue whenFalse | loop condition body =>
      exact ⟨_, String.append_assoc.symm⟩

/-- The source of a statement is its layout at the margin. -/
theorem Stmt.source_eq_layout (stmt : Stmt)
    : stmt.source = stmt.layout 0 := by
  rw [Stmt.source, Stmt.write_eq_add]
  exact String.empty_append

/-- The source of statements is their layout at the margin. -/
theorem Stmt.sourceAll_eq_layout (stmts : List Stmt)
    : Stmt.sourceAll stmts = Stmt.layoutAll 0 stmts := by
  rw [Stmt.sourceAll, Stmt.writeAll_eq_add]
  exact String.empty_append

/-- The source of a program is the layout of its statements at the margin. -/
theorem Program.source_eq_layout (p : Program)
    : p.source = Stmt.layoutAll 0 p.statements :=
  Stmt.sourceAll_eq_layout p.statements

/-- Statements that are written as nodes are all of a kind that can be written. -/
theorem Writer.writeNodes_stmts (w : Writer) (stmts : List Stmt)
    : w.writeNodes (stmts.map .stmt) = (Stmt.writeAll stmts w, none) := by
  induction stmts generalizing w with
  | nil => rfl
  | cons stmt rest ih => exact ih (stmt.write w)

/-- The text of statements is never refused. -/
theorem SourceTarget.source_stmts (stmts : List Stmt)
    : (SourceTarget.nodes (stmts.map .stmt)).source = .ok (Stmt.sourceAll stmts) := by
  rw [SourceTarget.source, Writer.writeNodes_stmts]
  rfl

end ScopedWhile
