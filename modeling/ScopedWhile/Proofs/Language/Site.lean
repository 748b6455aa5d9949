import ScopedWhile.Language.Tree

/-!
Places in a program and the names that are visible there: those declared before the place in its own
block and in the blocks around it. A program is well scoped if each of its statements declares a
name that is not visible, assigns to one that is and refers only to visible ones. Main statement:
one walk over the program decides whether it is well scoped.
-/

namespace ScopedWhile

/-- The name that a statement declares in the block it stands in. -/
def Stmt.declared? : Stmt → Option String
  | .declare name _ => some name
  | _ => none

/-- The names that statements declare in the block they stand in. -/
def Stmt.declaredNames (stmts : List Stmt) : List String :=
  stmts.filterMap declared?

/-- Statements declare what the first one declares, and then what the others do. -/
theorem Stmt.declaredNames_cons (stmt : Stmt) (rest : List Stmt)
    : declaredNames (stmt :: rest) = stmt.declared?.toList ++ declaredNames rest := by
  cases declares : stmt.declared? <;> simp [declaredNames, declares]

/-- The place of a statement: what precedes it in its own block and what precedes, in their blocks,
the statements around it, outermost first. -/
structure Site where
  around : List (List Stmt)
  before : List Stmt

namespace Site

def top : Site where
  around := []
  before := []

/-- The start of a block of the statement at a place. -/
def inside (site : Site) : Site where
  around := site.around ++ [site.before]
  before := []

def after (site : Site) (stmt : Stmt) : Site :=
  { site with before := site.before ++ [stmt] }

/-- The names declared before a place in its own block and in the blocks around it. -/
def visible (site : Site) : List String :=
  Stmt.declaredNames (site.around.flatten ++ site.before)

/-- Inside of a statement there is one more block around. -/
@[simp]
theorem length_around_inside (site : Site)
    : site.inside.around.length = site.around.length + 1 := by
  simp [inside]

@[simp]
theorem visible_top
    : top.visible = [] :=
  rfl

/-- A block that starts sees what was visible before it. -/
@[simp]
theorem visible_inside (site : Site)
    : site.inside.visible = site.visible := by
  simp [visible, inside]

/-- After a statement its declared name is visible too. -/
@[simp]
theorem visible_after (site : Site) (stmt : Stmt)
    : (site.after stmt).visible = site.visible ++ stmt.declared?.toList := by
  cases held : stmt.declared? <;>
    simp [visible, after, Stmt.declaredNames, List.filterMap_append, held]

end Site

/-- The blocks of a program, each with what precedes the statements around it. -/
inductive BlockAt (program : List Stmt) : List (List Stmt) → List Stmt → Prop where
  | top : BlockAt program [] program
  | whenTrue {around before condition whenTrue whenFalse after}
    (block : BlockAt program around (before ++ .branch condition whenTrue whenFalse :: after))
    : BlockAt program (around ++ [before]) whenTrue
  | whenFalse {around before condition whenTrue whenFalse after}
    (block : BlockAt program around (before ++ .branch condition whenTrue whenFalse :: after))
    : BlockAt program (around ++ [before]) whenFalse
  | body {around before condition body after}
    (block : BlockAt program around (before ++ .loop condition body :: after))
    : BlockAt program (around ++ [before]) body

/-- The program has the statement at the place. -/
def Occurs (program : List Stmt) (site : Site) (stmt : Stmt) : Prop :=
  ∃ after, BlockAt program site.around (site.before ++ stmt :: after)

-----------------------------------------------------------------------------------------
-- Well-scoped programs
-----------------------------------------------------------------------------------------

def Expr.names : Expr → List String
  | .boolean _ | .number _ => []
  | .var name => [name]
  | .binary _ left right => left.names ++ right.names

/-- The expression that a statement evaluates: its value or its test. -/
def Stmt.operand : Stmt → Expr
  | .declare _ e | .assign _ e | .print e => e
  | .branch condition _ _ | .loop condition _ => condition

/-- The name that a statement declares is new, and the name that it assigns to is visible. -/
def Stmt.NameFits (visible : List String) : Stmt → Prop
  | .declare name _ => name ∉ visible
  | .assign name _ => name ∈ visible
  | .branch _ _ _ | .loop _ _ | .print _ => True

/-- A statement uses names as it may where the given ones are visible, its blocks aside. -/
def Stmt.FitsIn (visible : List String) (stmt : Stmt) : Prop :=
  (∀ name ∈ stmt.operand.names, name ∈ visible) ∧ stmt.NameFits visible

instance (visible : List String) : (stmt : Stmt) → Decidable (stmt.NameFits visible)
  | .declare name _ => inferInstanceAs (Decidable (name ∉ visible))
  | .assign name _ => inferInstanceAs (Decidable (name ∈ visible))
  | .branch _ _ _ | .loop _ _ | .print _ => inferInstanceAs (Decidable True)

instance (visible : List String) (stmt : Stmt) : Decidable (stmt.FitsIn visible) :=
  inferInstanceAs (Decidable (_ ∧ _))

/-- Every statement of the program fits in its place. -/
def Program.WellScoped (p : Program) : Prop :=
  ∀ site stmt, Occurs p.statements site stmt → stmt.FitsIn site.visible

mutual

/-- Whether a statement and all statements in its blocks fit where the given names are visible. -/
def Stmt.wellPlaced (visible : List String) : Stmt → Bool
  | .branch condition whenTrue whenFalse =>
      decide ((Stmt.branch condition whenTrue whenFalse).FitsIn visible)
        && Stmt.allWellPlaced visible whenTrue && Stmt.allWellPlaced visible whenFalse
  | .loop condition body =>
      decide ((Stmt.loop condition body).FitsIn visible) && Stmt.allWellPlaced visible body
  | .declare name value => decide ((Stmt.declare name value).FitsIn visible)
  | .assign name value => decide ((Stmt.assign name value).FitsIn visible)
  | .print value => decide ((Stmt.print value).FitsIn visible)

def Stmt.allWellPlaced (visible : List String) : List Stmt → Bool
  | [] => true
  | stmt :: rest =>
      stmt.wellPlaced visible && Stmt.allWellPlaced (visible ++ stmt.declared?.toList) rest

end

/-- A checked statement fits in the names visible to it. -/
theorem Stmt.fitsIn_of_wellPlaced {visible : List String} {stmt : Stmt}
    (checked : stmt.wellPlaced visible = true)
    : stmt.FitsIn visible := by
  cases stmt <;> simp [wellPlaced] at checked <;> simp [checked]

/-- Statements in a row are well placed if the later ones are with the names that the first ones
declare. -/
theorem Stmt.allWellPlaced_append {visible : List String} {before after : List Stmt}
    : Stmt.allWellPlaced visible (before ++ after) = true
      ↔ Stmt.allWellPlaced visible before = true
        ∧ Stmt.allWellPlaced (visible ++ declaredNames before) after = true := by
  induction before generalizing visible with
  | nil => simp [allWellPlaced, declaredNames]
  | cons stmt rest ih =>
      simp [allWellPlaced, declaredNames_cons, ih, and_assoc]

/-- By induction over the way into the block: what the walk has checked around a block includes the
block itself. -/
theorem BlockAt.allWellPlaced {program block : List Stmt} {around : List (List Stmt)}
    (located : BlockAt program around block) (checked : Stmt.allWellPlaced [] program = true)
    : Stmt.allWellPlaced (Stmt.declaredNames around.flatten) block = true := by
  induction located with
  | top => exact checked
  | whenTrue _ ih =>
      have inner := (Stmt.allWellPlaced_append.mp ih).2
      simp only [Stmt.allWellPlaced, Stmt.wellPlaced, Bool.and_eq_true] at inner
      simpa [Stmt.declaredNames] using inner.1.1.2
  | whenFalse _ ih =>
      have inner := (Stmt.allWellPlaced_append.mp ih).2
      simp only [Stmt.allWellPlaced, Stmt.wellPlaced, Bool.and_eq_true] at inner
      simpa [Stmt.declaredNames] using inner.1.2
  | body _ ih =>
      have inner := (Stmt.allWellPlaced_append.mp ih).2
      simp only [Stmt.allWellPlaced, Stmt.wellPlaced, Bool.and_eq_true] at inner
      simpa [Stmt.declaredNames] using inner.1.2

mutual

/-- If all statements of a program fit in at their places, each is well placed with the statements
inside of it. -/
theorem Stmt.wellPlaced_of_fitsIn {program : List Stmt}
    (fits : ∀ site stmt, Occurs program site stmt → stmt.FitsIn site.visible)
    (stmt : Stmt) (site : Site) (occurs : Occurs program site stmt)
    : stmt.wellPlaced site.visible = true := by
  have here := fits site stmt occurs
  obtain ⟨after, block⟩ := occurs
  cases stmt with
  | declare name value => simpa [wellPlaced] using here
  | assign name value => simpa [wellPlaced] using here
  | print value => simpa [wellPlaced] using here
  | branch condition whenTrue whenFalse =>
      have first := Stmt.allWellPlaced_of_fitsIn fits whenTrue site.inside block.whenTrue
      have second := Stmt.allWellPlaced_of_fitsIn fits whenFalse site.inside block.whenFalse
      rw [Site.visible_inside] at first second
      simp [wellPlaced, here, first, second]
  | loop condition body =>
      have inner := Stmt.allWellPlaced_of_fitsIn fits body site.inside block.body
      rw [Site.visible_inside] at inner
      simp [wellPlaced, here, inner]
termination_by sizeOf stmt

/-- If all statements of a program fit in at their places, each block is well placed. -/
theorem Stmt.allWellPlaced_of_fitsIn {program : List Stmt}
    (fits : ∀ site stmt, Occurs program site stmt → stmt.FitsIn site.visible)
    (stmts : List Stmt) (site : Site) (block : BlockAt program site.around (site.before ++ stmts))
    : Stmt.allWellPlaced site.visible stmts = true := by
  cases stmts with
  | nil => rfl
  | cons stmt rest =>
      have first := Stmt.wellPlaced_of_fitsIn fits stmt site ⟨rest, block⟩
      have others := Stmt.allWellPlaced_of_fitsIn fits rest (site.after stmt)
        (by simpa [Site.after] using block)
      rw [Site.visible_after] at others
      simp [allWellPlaced, first, others]
termination_by sizeOf stmts

end

/-- The walk over a program accepts exactly the well-scoped ones. -/
theorem Program.wellScoped_iff {p : Program}
    : p.WellScoped ↔ Stmt.allWellPlaced [] p.statements = true := by
  constructor
  · intro fits
    exact Stmt.allWellPlaced_of_fitsIn fits p.statements .top .top
  · rintro checked site stmt ⟨after, block⟩
    have inner := (Stmt.allWellPlaced_append.mp (block.allWellPlaced checked)).2
    simp only [Stmt.allWellPlaced, Bool.and_eq_true] at inner
    simpa [Site.visible, Stmt.declaredNames] using Stmt.fitsIn_of_wellPlaced inner.1

instance (p : Program) : Decidable p.WellScoped :=
  decidable_of_iff _ Program.wellScoped_iff.symm

end ScopedWhile
