import ScopedWhile.Datum.Basic

/-!
Writing data as JSON text. What has no JSON form (a number that is not finite, bytes, a scope) is
written as `null`.
-/

namespace ScopedWhile.Json

def escape (c : Char) : List Char :=
  if c = '\x22' ∨ c = '\\' then ['\\', c]
  else if c.toNat < 0x20 then
    '\\' :: 'u' :: '0' :: '0' :: (if c.toNat < 0x10 then ['0'] else []) ++ Nat.toDigits 16 c.toNat
  else [c]

def quote (text : String) : String :=
  String.ofList ('\x22' :: text.toList.flatMap escape ++ ['\x22'])

def writeNumber : Number → String
  | .int n => toString n
  | .double (.finite s r) => (Binary64.finite s r).text
  | .double _ => "null"

mutual

def write : Datum → String
  | .null => "null"
  | .boolean b => if b then "true" else "false"
  | .number n => writeNumber n
  | .text s => quote s
  | .bytes _ => "null"
  | .list items => "[" ++ String.intercalate "," (writeItems items) ++ "]"
  | .tuple items => "[" ++ String.intercalate "," (writeItems items) ++ "]"
  | .object fields => "\x7b" ++ String.intercalate "," (writeFields fields) ++ "\x7d"
  | .scope _ => "null"

def writeItems : List Datum → List String
  | [] => []
  | item :: rest => write item :: writeItems rest

def writeFields : List (String × Datum) → List String
  | [] => []
  | (name, item) :: rest => (quote name ++ ":" ++ write item) :: writeFields rest

end

end ScopedWhile.Json
