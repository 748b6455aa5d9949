/-! The first line of a text. -/

namespace ScopedWhile.Text

/-- The characters that end a line. -/
def isLineBreak (c : Char) : Bool :=
  c ∈ ['\n', '\r', '\x0b', '\x0c', '\x1c', '\x1d', '\x1e', '\x85', '\u2028', '\u2029']

/-- The part of a text before its first line break. -/
def firstLine (text : String) : String :=
  String.ofList (text.toList.takeWhile fun c => !isLineBreak c)

end ScopedWhile.Text
