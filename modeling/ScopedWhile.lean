import ScopedWhile.Document.Loading
import ScopedWhile.Execution.Run
import ScopedWhile.Execution.Store
import ScopedWhile.Language.Equality
import ScopedWhile.Proofs.Execution.FlatEnvironment
import ScopedWhile.Proofs.Execution.LatestWrite
import ScopedWhile.Proofs.Execution.LexicalScope
import ScopedWhile.Proofs.Execution.Residue
import ScopedWhile.Scope.Comparison
import ScopedWhile.Source.Target
import ScopedWhile.Proofs.Execution.Closure
import ScopedWhile.Proofs.Execution.Limit
import ScopedWhile.Proofs.Execution.Observation
import ScopedWhile.Proofs.Document.Denotation
import ScopedWhile.Proofs.Document.Schema
import ScopedWhile.Proofs.Document.Issues
import ScopedWhile.Proofs.Document.Comparison
import ScopedWhile.Proofs.Document.Routes
import ScopedWhile.Proofs.Number.Reading
import ScopedWhile.Proofs.Source.Grammar
import ScopedWhile.Proofs.Source.Parsing
import ScopedWhile.Proofs.Source.Layout
import ScopedWhile.Proofs.Source.RoundTrip
import ScopedWhile.Proofs.Language.Renaming
import ScopedWhile.Proofs.Execution.Comparison
import ScopedWhile.Proofs.Execution.Renaming
import ScopedWhile.Proofs.Execution.Independence
import ScopedWhile.Proofs.Execution.Log
import ScopedWhile.Proofs.Document.Edits
import ScopedWhile.Proofs.Document.Respelling
import ScopedWhile.Proofs.Document.NormalForm
import ScopedWhile.Proofs.Evaluation.Kinds
import ScopedWhile.Proofs.Evaluation.StackMachine
import ScopedWhile.Proofs.Execution.InPlace
import ScopedWhile.Proofs.Execution.Unrolling
import ScopedWhile.Proofs.Number.ExactValue
import ScopedWhile.Proofs.Evaluation.Ordering
import ScopedWhile.Proofs.Number.Display
import ScopedWhile.Proofs.Source.Indentation
import ScopedWhile.Proofs.Source.Parentheses
import ScopedWhile.Proofs.Scope.History
import ScopedWhile.Proofs.Scope.View
import ScopedWhile.Proofs.Scope.NearestBinding
