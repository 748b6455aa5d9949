import ScopedWhile.Scope.Level

/-!
A chain of levels: the current one and those around it, the nearest first. A name means the binding
of the nearest level that binds it.
-/

namespace ScopedWhile

structure Chain where
  level : Level
  outer : List Level

namespace Chain

def root (level : Level) : Chain :=
  { level, outer := [] }

/-- A chain from its levels, the outermost first; none give an empty level. -/
def ofLevels (levels : List Level) : Chain :=
  match levels.reverse with
  | [] => root .empty
  | level :: outer => { level, outer }

def levels (chain : Chain) : List Level :=
  chain.level :: chain.outer

/-- How many levels lie around the current one. -/
def depth (chain : Chain) : Nat :=
  chain.outer.length

/-- The chain of a block: a copy of the current level inside of it. -/
def child (chain : Chain) : Chain where
  level := chain.level
  outer := chain.levels

/-- The datum that the nearest level binding a name binds to it. -/
def nearest? (chain : Chain) (name : String) : Option Datum :=
  chain.levels.findSome? fun level => level.get? name

/-- The value of a name. A nearest binding to anything else than a run-time value hides those
farther out and gives none. -/
def lookup? (chain : Chain) (name : String) : Option Value :=
  (chain.nearest? name).bind Datum.toValue?

/-- A copy of a level finds every name where the level does. -/
theorem nearest?_child (chain : Chain) (name : String)
    : chain.child.nearest? name = chain.nearest? name := by
  simp only [nearest?, child, levels, List.findSome?_cons]
  cases chain.level.get? name <;> rfl

theorem lookup?_child (chain : Chain) (name : String)
    : chain.child.lookup? name = chain.lookup? name := by
  rw [lookup?, lookup?, nearest?_child]

end Chain

end ScopedWhile
