import ScopedWhile.Datum.Rendering
import ScopedWhile.Language.Tree
import ScopedWhile.Scope.Chain
import ScopedWhile.Source.Writer
import ScopedWhile.Text.Line

/-!
What happens in an execution, in order, each event with the chain of levels right after it. The log
is a rendering of these events; an assignment shows in no log entry of its own.
-/

namespace ScopedWhile

inductive Event where
  /-- A statement is about to be executed. -/
  | entered (stmt : Stmt) (chain : Chain)
  | declared (name : String) (chain : Chain)
  | assigned (name : String) (chain : Chain)
  /-- A block has ended and the level around it has taken over its values. -/
  | merged (chain : Chain)

/-- The bindings of a level between braces. -/
def Level.render (scopeText : ScopeId → String) (level : Level) : String :=
  (Datum.object level.entries).render scopeText

def Event.chain : Event → Chain
  | .entered _ chain | .declared _ chain | .assigned _ chain | .merged chain => chain

/-- The log message of an event, where `bindings` renders the current level of a chain. -/
def Event.message? (bindings : Chain → String) : Event → Option String
  | .entered stmt chain =>
      some ("exec [depth " ++ toString chain.depth ++ "] " ++ Text.firstLine stmt.source)
  | .declared name chain => some ("declared " ++ name ++ ", bindings: " ++ bindings chain)
  | .assigned _ _ => none
  | .merged chain => some ("merged block scope: " ++ bindings chain)

end ScopedWhile
