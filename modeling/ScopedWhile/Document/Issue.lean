/-!
What is wrong with a document, and where. A reading either succeeds or reports all its issues, each
with the path that leads to it.
-/

namespace ScopedWhile

/-- Where the data of a document comes from. -/
inductive Origin where
  | data
  | json
deriving DecidableEq

inductive Problem where
  | listExpected
  /-- Something other than an object stands where a node is expected. -/
  | nodeExpected (origin : Origin)
  /-- Something other than an object is read as a node of one given kind. -/
  | recordExpected
  | tagMissing
  | tagUnknown
  /-- A node of one given kind has the tag of another. -/
  | tagMismatch
  | fieldMissing
  | textExpected
  | textUndecodable
  | booleanExpected
  | numberExpected
  | operatorExpected
  | notJson
  | jsonExpected
  | immutable
deriving DecidableEq

def Problem.code : Problem → String
  | .listExpected => "list_type"
  | .nodeExpected .data => "model_attributes_type"
  | .nodeExpected .json => "dict_type"
  | .recordExpected => "model_type"
  | .tagMissing => "union_tag_not_found"
  | .tagUnknown => "union_tag_invalid"
  | .tagMismatch => "literal_error"
  | .fieldMissing => "missing"
  | .textExpected => "string_type"
  | .textUndecodable => "string_unicode"
  | .booleanExpected => "bool_type"
  | .numberExpected => "float_type"
  | .operatorExpected => "enum"
  | .notJson => "json_invalid"
  | .jsonExpected => "json_type"
  | .immutable => "frozen_instance"

inductive Segment where
  | index (i : Nat)
  | name (s : String)
deriving DecidableEq

structure Issue where
  problem : Problem
  path : List Segment
deriving DecidableEq

/-- The result of reading: a value, or every issue found. -/
abbrev Checked (α : Type) := Except (List Issue) α

namespace Checked

def issue {α : Type} (problem : Problem) : Checked α :=
  .error [{ problem, path := [] }]

/-- Puts a segment in front of the path of every issue. -/
def under {α : Type} (segment : Segment) (checked : Checked α) : Checked α :=
  checked.mapError fun issues =>
    issues.map fun issue => { issue with path := segment :: issue.path }

/-- Both results, or the issues of the first and then those of the second. -/
def both {α β : Type} : Checked α → Checked β → Checked (α × β)
  | .ok a, .ok b => .ok (a, b)
  | .ok _, .error issues => .error issues
  | .error issues, .ok _ => .error issues
  | .error issues, .error more => .error (issues ++ more)

end Checked

end ScopedWhile
