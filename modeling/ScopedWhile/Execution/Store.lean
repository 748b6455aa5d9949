import ScopedWhile.Execution.Stmt
import ScopedWhile.Scope.Store

/-! Executing statements on a scope of a store, of which only that scope's level changes. -/

namespace ScopedWhile

/-- The level of a chain that lies at a depth, the outermost being at depth zero. -/
def Chain.levelAt? (chain : Chain) (depth : Nat) : Option Level :=
  chain.levels.reverse[depth]?

namespace Store

/-- Executes nodes on a scope and returns the outcome, the store and the machine at the end. -/
def exec {σ : Type} (store : Store) (s : Setting σ) (id : ScopeId) (nodes : List Node) (output : σ)
    : Outcome × Store × Machine σ :=
  let chain := store.chain id
  let (outcome, m) := Node.execAll s nodes chain.outer { level := chain.level, output }
  (outcome, store.setLevel id m.level, m)

/-- The log messages of an execution on a scope. A scope that holds itself shows the level that it
had when the event happened. -/
def messages (store : Store) (id : ScopeId) (history : List Event) : List String :=
  let depth := (store.chain id).depth
  history.filterMap <| Event.message? fun chain =>
    let current := (chain.levelAt? depth).getD (store.level id)
    (store.setLevel id current).levelText chain.level

end Store

end ScopedWhile
