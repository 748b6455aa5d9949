import ScopedWhile.Datum.Basic
import ScopedWhile.Text.Quoted

/-!
The text of data, as it stands in the log and in descriptions of scopes. How a scope held as a value
shows is left to the caller, who knows the store.
-/

namespace ScopedWhile.Datum

/-- Items between brackets, divided by a comma and a blank. -/
def bracketed (left right : String) (items : List String) : String :=
  left ++ String.intercalate ", " items ++ right

mutual

def render (scopeText : ScopeId → String) : Datum → String
  | .null => "None"
  | .boolean b => if b then "True" else "False"
  | .number n => n.text
  | .text s => Text.quote s
  | .bytes content => Text.quoteBytes content
  | .list items => bracketed "[" "]" (renderItems scopeText items)
  | .tuple [item] => "(" ++ item.render scopeText ++ ",)"
  | .tuple items => bracketed "(" ")" (renderItems scopeText items)
  | .object fields => bracketed "\x7b" "\x7d" (renderFields scopeText fields)
  | .scope id => scopeText id

def renderItems (scopeText : ScopeId → String) : List Datum → List String
  | [] => []
  | item :: rest => item.render scopeText :: renderItems scopeText rest

def renderFields (scopeText : ScopeId → String) : List (String × Datum) → List String
  | [] => []
  | (name, item) :: rest =>
      (Text.quote name ++ ": " ++ item.render scopeText) :: renderFields scopeText rest

end

end ScopedWhile.Datum
