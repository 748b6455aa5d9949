import ScopedWhile.Source.Expr

/-!
The source text of statements. A writer holds the text so far and the depth of the block it stands
in; every line is indented by four blanks for each level of depth.
-/

namespace ScopedWhile

structure Writer where
  depth : Nat := 0
  text : String := ""

namespace Writer

def indentation (depth : Nat) : String :=
  String.ofList (List.replicate (4 * depth) ' ')

def line (w : Writer) (text : String) : Writer :=
  { w with text := w.text ++ indentation w.depth ++ text ++ "\n" }

def indent (w : Writer) : Writer :=
  { w with depth := w.depth + 1 }

def dedent (w : Writer) : Writer :=
  { w with depth := w.depth - 1 }

end Writer

mutual

def Stmt.write : Stmt → Writer → Writer
  | .declare name value, w => w.line ("let " ++ name ++ " = " ++ value.source 0 ++ ";")
  | .assign name value, w => w.line (name ++ " = " ++ value.source 0 ++ ";")
  | .branch test whenTrue whenFalse, w =>
      let w := w.line ("if (" ++ test.source 0 ++ ") \x7b")
      let w := (Stmt.writeAll whenTrue w.indent).dedent
      let w :=
        if whenFalse.isEmpty then w
        else (Stmt.writeAll whenFalse (w.line "\x7d else \x7b").indent).dedent
      w.line "\x7d"
  | .loop test body, w =>
      let w := w.line ("while (" ++ test.source 0 ++ ") \x7b")
      (Stmt.writeAll body w.indent).dedent.line "\x7d"
  | .print value, w => w.line ("print(" ++ value.source 0 ++ ");")

def Stmt.writeAll : List Stmt → Writer → Writer
  | [], w => w
  | stmt :: rest, w => Stmt.writeAll rest (stmt.write w)

end

/-- The source text of statements, each of which ends its last line. -/
def Stmt.sourceAll (stmts : List Stmt) : String :=
  (Stmt.writeAll stmts {}).text

def Stmt.source (stmt : Stmt) : String :=
  (stmt.write {}).text

def Program.source (p : Program) : String :=
  Stmt.sourceAll p.statements

end ScopedWhile
