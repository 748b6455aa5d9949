import ScopedWhile.Proofs.Language.Site

/-!
The names that occur anywhere in a program, and programs with every name replaced by another. A
renaming is any map on names; what it must not do, to keep the meaning of a program, is for the
users of this module to say.
-/

namespace ScopedWhile

mutual

/-- The names that a statement reads, declares or assigns, in its blocks too. -/
def Stmt.names : Stmt → List String
  | .declare name value | .assign name value => name :: value.names
  | .branch condition whenTrue whenFalse =>
      condition.names ++ (Stmt.namesAll whenTrue ++ Stmt.namesAll whenFalse)
  | .loop condition body => condition.names ++ Stmt.namesAll body
  | .print value => value.names

def Stmt.namesAll : List Stmt → List String
  | [] => []
  | stmt :: rest => stmt.names ++ Stmt.namesAll rest

end

def Expr.rename (r : String → String) : Expr → Expr
  | .boolean b => .boolean b
  | .number x => .number x
  | .var name => .var (r name)
  | .binary op left right => .binary op (left.rename r) (right.rename r)

mutual

def Stmt.rename (r : String → String) : Stmt → Stmt
  | .declare name value => .declare (r name) (value.rename r)
  | .assign name value => .assign (r name) (value.rename r)
  | .branch condition whenTrue whenFalse =>
      .branch (condition.rename r) (Stmt.renameAll r whenTrue) (Stmt.renameAll r whenFalse)
  | .loop condition body => .loop (condition.rename r) (Stmt.renameAll r body)
  | .print value => .print (value.rename r)

def Stmt.renameAll (r : String → String) : List Stmt → List Stmt
  | [] => []
  | stmt :: rest => stmt.rename r :: Stmt.renameAll r rest

end

def Program.rename (r : String → String) (p : Program) : Program where
  statements := Stmt.renameAll r p.statements

-----------------------------------------------------------------------------------------
-- A program whose names stay as they are
-----------------------------------------------------------------------------------------

/-- Renaming nothing leaves an expression as it is. -/
theorem Expr.rename_id (e : Expr)
    : e.rename id = e := by
  induction e with
  | boolean b | number x | var name => rfl
  | binary op left right first second => rw [rename, first, second]

mutual

/-- Renaming nothing leaves a statement as it is. -/
theorem Stmt.rename_id : (stmt : Stmt) → stmt.rename id = stmt
  | .declare name value | .assign name value | .print value => by
      simp only [rename, id, value.rename_id]
  | .branch condition whenTrue whenFalse => by
      simp only [rename, condition.rename_id, Stmt.renameAll_id whenTrue,
        Stmt.renameAll_id whenFalse]
  | .loop condition body => by
      simp only [rename, condition.rename_id, Stmt.renameAll_id body]

/-- Renaming nothing leaves statements as they are. -/
theorem Stmt.renameAll_id : (stmts : List Stmt) → Stmt.renameAll id stmts = stmts
  | [] => rfl
  | stmt :: rest => by
      simp only [renameAll, stmt.rename_id, Stmt.renameAll_id rest]

end

end ScopedWhile
