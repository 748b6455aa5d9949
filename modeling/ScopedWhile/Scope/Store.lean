import ScopedWhile.Datum.Rendering
import ScopedWhile.Scope.Chain

/-!
A store of scopes that live side by side. Each has a level of its own and may have a parent, which
is older than it; any of them may be held as a datum by others or by itself.
-/

namespace ScopedWhile

structure Scope where
  level : Level
  parent : Option ScopeId

structure Store where
  scopes : Array Scope := #[]

namespace Store

def scope? (store : Store) (id : ScopeId) : Option Scope :=
  store.scopes[id]?

/-- The level of a scope; an id that names none has an empty one. -/
def level (store : Store) (id : ScopeId) : Level :=
  ((store.scope? id).map Scope.level).getD .empty

def parent? (store : Store) (id : ScopeId) : Option ScopeId :=
  (store.scope? id).bind Scope.parent

/-- Adds a scope, whose id is the size of the store so far. -/
def create (store : Store) (level : Level) (parent : Option ScopeId) : Store × ScopeId :=
  ({ scopes := store.scopes.push { level, parent } }, store.scopes.size)

/-- Adds a scope with a copy of another's level, inside of that other. -/
def child (store : Store) (id : ScopeId) : Store × ScopeId :=
  store.create (store.level id) (some id)

def setLevel (store : Store) (id : ScopeId) (level : Level) : Store where
  scopes := store.scopes.modify id fun scope => { scope with level }

def bind (store : Store) (id : ScopeId) (name : String) (datum : Datum) : Store :=
  store.setLevel id ((store.level id).set name datum)

def unbind (store : Store) (id : ScopeId) (name : String) : Store :=
  store.setLevel id ((store.level id).erase name)

/-- Gives the names of one scope the data that another has for them. -/
def mergeBack (store : Store) (id inner : ScopeId) : Store :=
  store.setLevel id ((store.level id).mergeBack (store.level inner))

/-- The levels met on the way from a scope to its root, for at most the given number of steps. -/
def levelsFrom (store : Store) : Nat → ScopeId → List Level
  | 0, _ => []
  | steps + 1, id => match store.scope? id with
    | none => []
    | some scope =>
        scope.level :: (scope.parent.map (store.levelsFrom steps)).getD []

/-- The chain of a scope. Parents are older than their children, so that the way from a scope to
its root has at most one step more than its id. -/
def chain (store : Store) (id : ScopeId) : Chain where
  level := store.level id
  outer := (store.levelsFrom (id + 1) id).tail

-----------------------------------------------------------------------------------------
-- Text
-----------------------------------------------------------------------------------------

/-- The text of a scope. A scope that is met again inside of its own text is abbreviated, and
`unmet` is more than the number of scopes not yet met. -/
def scopeText (store : Store) : (unmet : Nat) → (met : List ScopeId) → ScopeId → String
  | 0, _, _ => "..."
  | unmet + 1, met, id =>
      let bindings :=
        if id ∈ met then "\x7b...\x7d"
        else (Datum.object (store.level id).entries).render (store.scopeText unmet (id :: met))
      let parent := if (store.parent? id).isSome then ", parent=..." else ""
      "State(" ++ bindings ++ parent ++ ")"

def render (store : Store) (id : ScopeId) : String :=
  store.scopeText (store.scopes.size + 2) [] id

/-- The bindings of a level whose data may be scopes of the store. -/
def levelText (store : Store) (level : Level) : String :=
  (Datum.object level.entries).render store.render

end Store

end ScopedWhile
