import ScopedWhile.Datum.Basic

/-!
Reading JSON text. The grammar is the strict one of the standard, with the three number words `NaN`,
`Infinity` and `-Infinity` added. An integer token is read exactly, any other number as the nearest
double, and of two fields of one name the later value stands in the earlier place.
-/

namespace ScopedWhile.Json

def isBlank (c : Char) : Bool :=
  c = ' ' || c = '\t' || c = '\n' || c = '\r'

def skipBlanks (text : List Char) : List Char :=
  text.dropWhile isBlank

def hexDigit? (c : Char) : Option Nat :=
  if '0' ≤ c ∧ c ≤ '9' then some (c.toNat - '0'.toNat)
  else if 'a' ≤ c ∧ c ≤ 'f' then some (c.toNat - 'a'.toNat + 10)
  else if 'A' ≤ c ∧ c ≤ 'F' then some (c.toNat - 'A'.toNat + 10)
  else none

/-- The code unit that four hexadecimal digits spell. -/
def codeUnit? (digits : List Char) : Option Nat :=
  digits.foldlM (fun n c => (hexDigit? c).map (n * 16 + ·)) 0

/-- What a letter after a backslash stands for. -/
def simpleEscape? (c : Char) : Option Char :=
  if c = '\x22' ∨ c = '\\' ∨ c = '/' then some c
  else if c = 'b' then some '\x08'
  else if c = 'f' then some '\x0c'
  else if c = 'n' then some '\n'
  else if c = 'r' then some '\r'
  else if c = 't' then some '\t'
  else none

/-- Adds an escaped code unit to the characters read so far. A high surrogate waits for the low one
that must follow it, and a low one may stand nowhere else. -/
def addUnit? (read : List Char) (high : Option Nat) (unit : Nat)
    : Option (List Char × Option Nat) :=
  match high with
  | some h =>
      if 0xdc00 ≤ unit ∧ unit < 0xe000 then
        some (Char.ofNat (0x10000 + (h - 0xd800) * 0x400 + (unit - 0xdc00)) :: read, none)
      else none
  | none =>
      if 0xd800 ≤ unit ∧ unit < 0xdc00 then some (read, some unit)
      else if 0xdc00 ≤ unit ∧ unit < 0xe000 then none
      else some (Char.ofNat unit :: read, none)

/-- Reads a string from after its opening quote; `read` holds its characters so far, the last one
first, and `high` a high surrogate that waits for its partner. -/
def stringFrom? (read : List Char) (high : Option Nat)
    : List Char → Option (String × List Char)
  | [] => none
  | '\\' :: 'u' :: a :: b :: c :: d :: rest =>
      match (codeUnit? [a, b, c, d]).bind (addUnit? read high) with
      | some (read, high) => stringFrom? read high rest
      | none => none
  | '\\' :: c :: rest =>
      match high, simpleEscape? c with
      | none, some c => stringFrom? (c :: read) none rest
      | _, _ => none
  | c :: rest =>
      if high.isSome ∨ c.toNat < 0x20 then none
      else if c = '\x22' then some (String.ofList read.reverse, rest)
      else stringFrom? (c :: read) none rest

/-- The words of the grammar. -/
def words : List (String × Datum) :=
  [("true", .boolean true), ("false", .boolean false), ("null", .null),
   ("NaN", .number (.double .nan)),
   ("Infinity", .number (.double (.infinite false))),
   ("-Infinity", .number (.double (.infinite true)))]

def word? (text : List Char) : Option (Datum × List Char) :=
  words.findSome? fun (word, datum) =>
    (word.toList.isPrefixOf? text).map fun rest => (datum, rest)

def number? (text : List Char) : Option (Datum × List Char) :=
  (Numeral.read? text).map fun (numeral, rest) =>
    match numeral.toInt? with
    | some n => (.number (.int n), rest)
    | none => (.number (.double numeral.toBinary64), rest)

/-- Sets a field; one that is there already keeps its place. -/
def setField (fields : List (String × Datum)) (name : String) (value : Datum)
    : List (String × Datum) :=
  if fields.any (·.1 = name) then
    fields.map fun field => if field.1 = name then (name, value) else field
  else fields ++ [(name, value)]

mutual

/-- Reads a value at the front of a text; `depth` bounds the nesting of calls. -/
def value? : (depth : Nat) → List Char → Option (Datum × List Char)
  | 0, _ => none
  | depth + 1, text =>
      match skipBlanks text with
      | '[' :: rest =>
          match skipBlanks rest with
          | ']' :: rest => some (.list [], rest)
          | rest => items? depth [] rest
      | '\x7b' :: rest =>
          match skipBlanks rest with
          | '\x7d' :: rest => some (.object [], rest)
          | rest => fields? depth [] rest
      | '\x22' :: rest => (stringFrom? [] none rest).map fun (s, rest) => (.text s, rest)
      | text => (word? text).or (number? text)

/-- Reads the items of a list after those in `read`, the last one first. -/
def items? : (depth : Nat) → List Datum → List Char → Option (Datum × List Char)
  | 0, _, _ => none
  | depth + 1, read, text =>
      match value? depth text with
      | none => none
      | some (item, rest) =>
          match skipBlanks rest with
          | ',' :: rest => items? depth (item :: read) rest
          | ']' :: rest => some (.list (item :: read).reverse, rest)
          | _ => none

/-- Reads the fields of an object after those in `read`. -/
def fields? : (depth : Nat) → List (String × Datum) → List Char → Option (Datum × List Char)
  | 0, _, _ => none
  | depth + 1, read, text =>
      match skipBlanks text with
      | '\x22' :: rest =>
          match (stringFrom? [] none rest).map fun (name, rest) => (name, skipBlanks rest) with
          | some (name, ':' :: rest) =>
              match value? depth rest with
              | none => none
              | some (item, rest) =>
                  match skipBlanks rest with
                  | ',' :: rest => fields? depth (setField read name item) rest
                  | '\x7d' :: rest => some (.object (setField read name item), rest)
                  | _ => none
          | _ => none
      | _ => none

end

/-- Reads a whole text. Two nested calls consume at least one character, so twice the length of the
text bounds their nesting. -/
def read? (text : String) : Option Datum :=
  let chars := text.toList
  match value? (2 * chars.length + 2) chars with
  | some (datum, rest) => if skipBlanks rest = [] then some datum else none
  | none => none

/-- Reads a text given as its UTF-8 bytes. -/
def readBytes? (content : List UInt8) : Option Datum :=
  (String.fromUTF8? ⟨content.toArray⟩).bind read?

end ScopedWhile.Json
