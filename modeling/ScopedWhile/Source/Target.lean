import ScopedWhile.Source.Writer

/-!
Source text of what need not be a statement: single nodes, lists of nodes and plain data. What
cannot be written is refused, and what was written before it stays.
-/

namespace ScopedWhile

inductive SourceError where
  | unsupportedStatement (tag : String)
  | unsupportedExpression (tag : String)
  /-- A datum is neither a program nor a part of one. -/
  | unsupportedTarget (typeName : String)
  /-- An item of a list is a datum and not a node. -/
  | untagged (typeName : String)
deriving DecidableEq

def SourceError.message : SourceError → String
  | .unsupportedStatement tag => s!"Unsupported statement kind: {tag}"
  | .unsupportedExpression tag => s!"Unsupported expression kind: {tag}"
  | .unsupportedTarget typeName =>
      s!"to_source() expects a Program, statement or expression, got {typeName}"
  | .untagged typeName => s!"'{typeName}' object has no attribute 'kind'"

/-- The text of a node as an operand in a context; only expressions have one. -/
def Node.operandSource (context : Nat) : Node → Except SourceError String
  | .expr e => .ok (e.source context)
  | .stmt s => .error (.unsupportedExpression s.kind.tag)

namespace Writer

/-- Writes a node, which must be a statement. -/
def writeNode (w : Writer) : Node → Writer × Option SourceError
  | .stmt s => (s.write w, none)
  | .expr e => (w, some (.unsupportedStatement e.kind.tag))

/-- Writes nodes up to the first that is not a statement. -/
def writeNodes (w : Writer) : List Node → Writer × Option SourceError
  | [] => (w, none)
  | node :: rest => match w.writeNode node with
    | (w, none) => w.writeNodes rest
    | refused => refused

/-- Writes nodes as a block. A refused node leaves the writer in the block. -/
def writeBlock (w : Writer) (nodes : List Node) : Writer × Option SourceError :=
  match w.indent.writeNodes nodes with
  | (w, none) => (w.dedent, none)
  | refused => refused

end Writer

inductive SourceTarget where
  | program (p : Program)
  | nodes (ns : List Node)
  | node (n : Node)
  | datum (d : Datum)

/-- The source text of a target; a lone expression has no line end. -/
def SourceTarget.source : SourceTarget → Except SourceError String
  | .program p => .ok p.source
  | .nodes ns => match Writer.writeNodes {} ns with
    | (w, none) => .ok w.text
    | (_, some cause) => .error cause
  | .node (.expr e) => .ok (e.source 0)
  | .node (.stmt s) => .ok s.source
  | .datum (.list []) => .ok ""
  | .datum (.list (item :: _)) => .error (.untagged item.typeName)
  | .datum d => .error (.unsupportedTarget d.typeName)

end ScopedWhile
