import ScopedWhile.Language.Tree

/-!
The concrete grammar of programs. A text is cut into tokens; the relations say which tokens are an
expression at a level of binding strength, a statement or a list of statements, and the functions
below them are the parser of that grammar, by recursive descent.
-/

namespace ScopedWhile

namespace Grammar

-----------------------------------------------------------------------------------------
-- Tokens
-----------------------------------------------------------------------------------------

inductive Keyword where
  | declare
  | branch
  | otherwise
  | loop
  | print
  | yes
  | no
  | infinity
  | nan
deriving DecidableEq

namespace Keyword

def all : List Keyword :=
  [.declare, .branch, .otherwise, .loop, .print, .yes, .no, .infinity, .nan]

def text : Keyword → String
  | .declare => "let"
  | .branch => "if"
  | .otherwise => "else"
  | .loop => "while"
  | .print => "print"
  | .yes => "true"
  | .no => "false"
  | .infinity => "inf"
  | .nan => "nan"

def ofText? (text : String) : Option Keyword :=
  all.find? fun keyword => keyword.text = text

end Keyword

inductive Token where
  | keyword (k : Keyword)
  | name (s : String)
  /-- A numeral without a sign. -/
  | number (n : Numeral)
  | operator (op : Operator)
  | equals
  | leftParen
  | rightParen
  | leftBrace
  | rightBrace
  | semicolon
deriving DecidableEq

def isBlank (c : Char) : Bool :=
  c = ' ' || c = '\n' || c = '\t' || c = '\r'

/-- A character that a name or keyword may start with. -/
def isLetter (c : Char) : Bool :=
  c.isAlpha || c = '_'

def isWordCharacter (c : Char) : Bool :=
  isLetter c || c.isDigit

def ofWord (word : String) : Token :=
  match Keyword.ofText? word with
  | some k => .keyword k
  | none => .name word

/-- The longest symbol at the front of a text and what follows it. -/
def symbol? : List Char → Option (Token × List Char)
  | '=' :: '=' :: '=' :: rest => some (.operator .equal, rest)
  | '=' :: rest => some (.equals, rest)
  | '&' :: '&' :: rest => some (.operator .and, rest)
  | '|' :: '|' :: rest => some (.operator .or, rest)
  | '+' :: rest => some (.operator .add, rest)
  | '-' :: rest => some (.operator .sub, rest)
  | '*' :: rest => some (.operator .mul, rest)
  | '/' :: rest => some (.operator .div, rest)
  | '>' :: rest => some (.operator .greater, rest)
  | '<' :: rest => some (.operator .less, rest)
  | '(' :: rest => some (.leftParen, rest)
  | ')' :: rest => some (.rightParen, rest)
  | '\x7b' :: rest => some (.leftBrace, rest)
  | '\x7d' :: rest => some (.rightBrace, rest)
  | ';' :: rest => some (.semicolon, rest)
  | _ => none

def token? : List Char → Option (Token × List Char)
  | [] => none
  | c :: rest =>
      if isLetter c then
        let (word, rest) := (c :: rest).span isWordCharacter
        some (ofWord (String.ofList word), rest)
      else if c.isDigit then (Numeral.read? (c :: rest)).map fun (n, rest) => (.number n, rest)
      else symbol? (c :: rest)

/-- Goes on after a part that was read, which must have taken something of the input. -/
def goOn {σ α β : Type} (input : List σ) (part : Option (α × List σ))
    (next : α → (rest : List σ) → rest.length < input.length → Option β)
    : Option β :=
  match part with
  | some (a, rest) => if shorter : rest.length < input.length then next a rest shorter else none
  | none => none

/-- The tokens of a text; blanks only keep tokens apart. -/
def tokens? : List Char → Option (List Token)
  | [] => some []
  | c :: rest =>
      if isBlank c then tokens? rest
      else goOn (c :: rest) (token? (c :: rest)) fun token rest _ =>
        (tokens? rest).map fun tokens => token :: tokens
termination_by text => text.length
decreasing_by
  · exact Nat.lt_add_one _
  · assumption

-----------------------------------------------------------------------------------------
-- The grammar
-----------------------------------------------------------------------------------------

/-- The operands that are not in parentheses. A minus sign in front of a number belongs to it. -/
inductive Literal : List Token → Expr → Prop where
  | yes : Literal [.keyword .yes] (.boolean true)
  | no : Literal [.keyword .no] (.boolean false)
  | infinity : Literal [.keyword .infinity] (.number (.infinite false))
  | minusInfinity : Literal [.operator .sub, .keyword .infinity] (.number (.infinite true))
  | nan : Literal [.keyword .nan] (.number .nan)
  | number (n : Numeral) : Literal [.number n] (.number n.toBinary64)
  | minusNumber (n : Numeral) : Literal [.operator .sub, .number n] (.number n.toBinary64.neg)
  | var (name : String) : Literal [.name name] (.var name)

/-- The operators in tiers, those that bind least tightly first. -/
def tiers : List (List Operator) :=
  [[.or], [.and], [.equal], [.greater, .less], [.add, .sub], [.mul, .div]]

/-- How tightly an operator binds; level 0 is below all tiers. -/
def strength (op : Operator) : Nat :=
  tiers.findIdx (fun tier => tier.contains op) + 1

/-- The precedence that the writer uses is the strength in the grammar. -/
theorem precedence_eq_strength (op : Operator)
    : op.precedence = strength op := by
  cases op <;> rfl

/-- Tokens that are an expression all of whose outer operators bind at least as tightly as a level.
The right operand of an operator must bind more tightly than the operator, so that operators of one
strength associate to the left. -/
inductive Phrase : Nat → List Token → Expr → Prop where
  | literal {level : Nat} {tokens : List Token} {e : Expr} (literal : Literal tokens e)
    : Phrase level tokens e
  | paren {level : Nat} {tokens : List Token} {e : Expr} (inner : Phrase 0 tokens e)
    : Phrase level (.leftParen :: (tokens ++ [.rightParen])) e
  | binary {level : Nat} {op : Operator} {l r : List Token} {left right : Expr}
      (binds : level ≤ strength op)
      (first : Phrase (strength op) l left)
      (second : Phrase (strength op + 1) r right)
    : Phrase level (l ++ .operator op :: r) (.binary op left right)

mutual

inductive Sentence : List Token → Stmt → Prop where
  | declare {name : String} {tokens : List Token} {value : Expr} (phrase : Phrase 0 tokens value)
    : Sentence (.keyword .declare :: .name name :: .equals :: (tokens ++ [.semicolon]))
        (.declare name value)
  | assign {name : String} {tokens : List Token} {value : Expr} (phrase : Phrase 0 tokens value)
    : Sentence (.name name :: .equals :: (tokens ++ [.semicolon])) (.assign name value)
  | print {tokens : List Token} {value : Expr} (phrase : Phrase 0 tokens value)
    : Sentence (.keyword .print :: .leftParen :: (tokens ++ [.rightParen, .semicolon]))
        (.print value)
  | loop {tokens inner : List Token} {test : Expr} {body : List Stmt}
      (phrase : Phrase 0 tokens test) (block : Block inner body)
    : Sentence
        (.keyword .loop :: .leftParen
          :: (tokens ++ .rightParen :: .leftBrace :: (inner ++ [.rightBrace])))
        (.loop test body)
  | branch {tokens inner : List Token} {test : Expr} {whenTrue : List Stmt}
      (phrase : Phrase 0 tokens test) (block : Block inner whenTrue)
    : Sentence
        (.keyword .branch :: .leftParen
          :: (tokens ++ .rightParen :: .leftBrace :: (inner ++ [.rightBrace])))
        (.branch test whenTrue [])
  | branchElse {tokens inner other : List Token} {test : Expr} {whenTrue whenFalse : List Stmt}
      (phrase : Phrase 0 tokens test) (block : Block inner whenTrue)
      (otherBlock : Block other whenFalse)
    : Sentence
        (.keyword .branch :: .leftParen
          :: (tokens ++ .rightParen :: .leftBrace
            :: (inner ++ .rightBrace :: .keyword .otherwise :: .leftBrace
              :: (other ++ [.rightBrace]))))
        (.branch test whenTrue whenFalse)

inductive Block : List Token → List Stmt → Prop where
  | nil
    : Block [] []
  | cons {tokens others : List Token} {stmt : Stmt} {stmts : List Stmt}
      (first : Sentence tokens stmt) (rest : Block others stmts)
    : Block (tokens ++ others) (stmt :: stmts)

end

-----------------------------------------------------------------------------------------
-- The parser
-----------------------------------------------------------------------------------------

def literal? : List Token → Option (Expr × List Token)
  | .keyword .yes :: rest => some (.boolean true, rest)
  | .keyword .no :: rest => some (.boolean false, rest)
  | .keyword .infinity :: rest => some (.number (.infinite false), rest)
  | .operator .sub :: .keyword .infinity :: rest => some (.number (.infinite true), rest)
  | .keyword .nan :: rest => some (.number .nan, rest)
  | .number n :: rest => some (.number n.toBinary64, rest)
  | .operator .sub :: .number n :: rest => some (.number n.toBinary64.neg, rest)
  | .name name :: rest => some (.var name, rest)
  | _ => none

mutual

def operand? : List Token → Option (Expr × List Token)
  | .leftParen :: inner => match expr? 0 inner with
    | some (e, .rightParen :: rest) => some (e, rest)
    | _ => none
  | tokens => literal? tokens
termination_by tokens => (tokens.length, 0)

/-- The longest expression at the front whose operators bind at least as tightly as a context. -/
def expr? (context : Nat) (tokens : List Token) : Option (Expr × List Token) :=
  goOn tokens (operand? tokens) fun left rest _ => operations? context left rest
termination_by (tokens.length, 1)

/-- Goes on with the operations that a left operand is followed by. -/
def operations? (context : Nat) (left : Expr) : List Token → Option (Expr × List Token)
  | .operator op :: after =>
      if context ≤ strength op then
        goOn (.operator op :: after) (expr? (strength op + 1) after) fun right rest _ =>
          operations? context (.binary op left right) rest
      else some (left, .operator op :: after)
  | tokens => some (left, tokens)
termination_by tokens => (tokens.length, 0)

end

/-- A test in parentheses and the brace that opens the block after it. -/
def test? : List Token → Option (Expr × List Token)
  | .leftParen :: tokens => match expr? 0 tokens with
    | some (test, .rightParen :: .leftBrace :: rest) => some (test, rest)
    | _ => none
  | _ => none

/-- The end of the first part of a branch, and whether it opens another part. -/
def endOfPart? : List Token → Option (Bool × List Token)
  | .rightBrace :: .keyword .otherwise :: .leftBrace :: rest => some (true, rest)
  | .rightBrace :: rest => some (false, rest)
  | _ => none

mutual

def stmt? : List Token → Option (Stmt × List Token)
  | .keyword .declare :: .name name :: .equals :: tokens => match expr? 0 tokens with
    | some (value, .semicolon :: rest) => some (.declare name value, rest)
    | _ => none
  | .name name :: .equals :: tokens => match expr? 0 tokens with
    | some (value, .semicolon :: rest) => some (.assign name value, rest)
    | _ => none
  | .keyword .print :: .leftParen :: tokens => match expr? 0 tokens with
    | some (value, .rightParen :: .semicolon :: rest) => some (.print value, rest)
    | _ => none
  | .keyword .loop :: tokens =>
      goOn tokens (test? tokens) fun test inner _ => match stmts? inner with
        | some (body, .rightBrace :: rest) => some (.loop test body, rest)
        | _ => none
  | .keyword .branch :: tokens =>
      goOn tokens (test? tokens) fun test inner _ =>
        goOn tokens (stmts? inner) fun whenTrue after _ =>
          goOn tokens (endOfPart? after) fun another rest _ =>
            if another then match stmts? rest with
              | some (whenFalse, .rightBrace :: rest) => some (.branch test whenTrue whenFalse, rest)
              | _ => none
            else some (.branch test whenTrue [], rest)
  | _ => none
termination_by tokens => (tokens.length, 0)

/-- Statements up to the end or to a closing brace. -/
def stmts? : List Token → Option (List Stmt × List Token)
  | [] => some ([], [])
  | .rightBrace :: rest => some ([], .rightBrace :: rest)
  | first :: rest =>
      goOn (first :: rest) (stmt? (first :: rest)) fun stmt rest _ =>
        (stmts? rest).map fun (stmts, rest) => (stmt :: stmts, rest)
termination_by tokens => (tokens.length, 1)

end

end Grammar

/-- Reads a program from its source text. -/
def Program.parse? (text : String) : Option Program :=
  match (Grammar.tokens? text.toList).bind Grammar.stmts? with
  | some (stmts, []) => some ⟨stmts⟩
  | _ => none

end ScopedWhile
