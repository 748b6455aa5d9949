import ScopedWhile.Proofs.Language.Site
import ScopedWhile.Proofs.Number.Reading
import ScopedWhile.Proofs.Source.Layout
import ScopedWhile.Proofs.Source.Parsing

/-!
Source text loses nothing. The text of a program whose names are identifiers is cut into tokens
that derive the program again, up to literals that are displayed alike.
-/

namespace ScopedWhile

/-- The same expression, except that numbers need only be displayed alike. -/
inductive Expr.Alike : Expr → Expr → Prop where
  | boolean (b : Bool)
    : Alike (.boolean b) (.boolean b)
  | number {x y : Binary64} (same : (Number.double x).display = (Number.double y).display)
    : Alike (.number x) (.number y)
  | var (name : String)
    : Alike (.var name) (.var name)
  | binary {op : Operator} {left right left' right' : Expr} (first : Alike left left')
      (second : Alike right right')
    : Alike (.binary op left right) (.binary op left' right')

mutual

inductive Stmt.Alike : Stmt → Stmt → Prop where
  | declare {name : String} {value value' : Expr} (alike : value.Alike value')
    : Alike (.declare name value) (.declare name value')
  | assign {name : String} {value value' : Expr} (alike : value.Alike value')
    : Alike (.assign name value) (.assign name value')
  | branch {test test' : Expr} {whenTrue whenFalse whenTrue' whenFalse' : List Stmt}
      (alike : test.Alike test') (first : Stmt.AllAlike whenTrue whenTrue')
      (second : Stmt.AllAlike whenFalse whenFalse')
    : Alike (.branch test whenTrue whenFalse) (.branch test' whenTrue' whenFalse')
  | loop {test test' : Expr} {body body' : List Stmt} (alike : test.Alike test')
      (block : Stmt.AllAlike body body')
    : Alike (.loop test body) (.loop test' body')
  | print {value value' : Expr} (alike : value.Alike value')
    : Alike (.print value) (.print value')

inductive Stmt.AllAlike : List Stmt → List Stmt → Prop where
  | nil
    : AllAlike [] []
  | cons {stmt stmt' : Stmt} {stmts stmts' : List Stmt} (first : Stmt.Alike stmt stmt')
      (rest : AllAlike stmts stmts')
    : AllAlike (stmt :: stmts) (stmt' :: stmts')

end

/-- The same program, except that its numbers need only be displayed alike. -/
def Program.Alike (p q : Program) : Prop :=
  Stmt.AllAlike p.statements q.statements

/-- Two expressions that are like a third are alike. -/
theorem Expr.Alike.join {e f g : Expr} (first : e.Alike g) (second : f.Alike g)
    : e.Alike f := by
  induction first generalizing f with
  | boolean b =>
      cases second
      exact .boolean b
  | number same => cases second with
    | number other => exact .number (same.trans other.symm)
  | var name =>
      cases second
      exact .var name
  | binary _ _ ihLeft ihRight => cases second with
    | binary left right => exact .binary (ihLeft left) (ihRight right)

mutual

/-- Statements like a third one are alike, by recursion over both comparisons. -/
theorem Stmt.Alike.join {s t u : Stmt} : s.Alike u → t.Alike u → s.Alike t
  | .declare alike, .declare other => .declare (alike.join other)
  | .assign alike, .assign other => .assign (alike.join other)
  | .branch alike first second, .branch other first' second' =>
      .branch (alike.join other) (first.join first') (second.join second')
  | .loop alike block, .loop other block' => .loop (alike.join other) (block.join block')
  | .print alike, .print other => .print (alike.join other)

/-- Rows of statements like a third one are alike. -/
theorem Stmt.AllAlike.join {ss ts us : List Stmt}
    : Stmt.AllAlike ss us → Stmt.AllAlike ts us → Stmt.AllAlike ss ts
  | .nil, .nil => .nil
  | .cons first rest, .cons first' rest' => .cons (first.join first') (rest.join rest')

end

namespace Grammar

-----------------------------------------------------------------------------------------
-- Texts and their tokens
-----------------------------------------------------------------------------------------

/-- The text is cut into the tokens, whatever follows it. -/
def Lexes (text : String) (tokens : List Token) : Prop :=
  ∀ rest, tokens? (text.toList ++ rest) = (tokens? rest).map fun more => tokens ++ more

/-- What follows a word or a number in source text. -/
def isDelimiter (c : Char) : Bool :=
  c = ' ' || c = '\n' || c = '(' || c = ')' || c = ';'

/-- The text is cut into the tokens if nothing follows it or a delimiter does. -/
def Spells (text : String) (tokens : List Token) : Prop :=
  ∀ rest, (∀ c ∈ rest.head?, isDelimiter c)
    → tokens? (text.toList ++ rest) = (tokens? rest).map fun more => tokens ++ more

section
variable {text more : String} {tokens others : List Token}

theorem Lexes.spells (lexes : Lexes text tokens)
    : Spells text tokens :=
  fun rest _ => lexes rest

/-- Texts that are cut whatever follows are cut one after the other. -/
theorem Lexes.append (first : Lexes text tokens) (second : Lexes more others)
    : Lexes (text ++ more) (tokens ++ others) := by
  intro rest
  rw [String.toList_append, List.append_assoc, first, second, Option.map_map]
  simp only [Function.comp_def, List.append_assoc]

/-- A text that is cut whatever follows may stand before one that needs a delimiter. -/
theorem Lexes.append_spells (first : Lexes text tokens) (second : Spells more others)
    : Spells (text ++ more) (tokens ++ others) := by
  intro rest delimited
  rw [String.toList_append, List.append_assoc, first, second rest delimited, Option.map_map]
  simp only [Function.comp_def, List.append_assoc]

/-- A text that needs a delimiter may stand before one that starts with a delimiter. -/
theorem Spells.append_lexes (first : Spells text tokens) (second : Lexes more others)
    (delimiter : more.toList.head?.any isDelimiter)
    : Lexes (text ++ more) (tokens ++ others) := by
  intro rest
  rw [String.toList_append, List.append_assoc, first, second, Option.map_map]
  · simp only [Function.comp_def, List.append_assoc]
  · intro c head
    cases characters : more.toList with
    | nil => simp [characters] at delimiter
    | cons =>
        rw [characters] at delimiter head
        cases head
        exact delimiter

end

theorem lexes_empty
    : Lexes "" [] := by
  intro rest
  simp

/-- Blanks before the tokens are skipped. -/
theorem tokens?_blank {c : Char} (blank : isBlank c) (rest : List Char)
    : tokens? (c :: rest) = tokens? rest := by
  rw [tokens?, if_pos blank]

/-- Blanks have no tokens, by induction on their number. -/
theorem lexes_blanks (count : Nat)
    : Lexes (String.ofList (List.replicate count ' ')) [] := by
  intro rest
  rw [String.toList_ofList]
  induction count with
  | zero => simp
  | succ count ih =>
      rw [List.replicate_succ, List.cons_append, tokens?_blank (by decide), ih]

theorem lexes_lineEnd
    : Lexes "\n" [] := by
  intro rest
  show tokens? ('\n' :: rest) = _
  rw [tokens?_blank (by decide)]
  simp

/-- One token at the front of a text that does not start with a blank. -/
theorem tokens?_cons {c : Char} {rest after : List Char} {token : Token}
    (visible : ¬ isBlank c) (found : token? (c :: rest) = some (token, after))
    (shorter : after.length < (c :: rest).length)
    : tokens? (c :: rest) = (tokens? after).map fun tokens => token :: tokens := by
  rw [tokens?, if_neg visible, goOn_some found shorter]

/-- A text that is read as a symbol has its token. -/
theorem lexes_symbol {text : String} {token : Token}
    (symbol : text.toList.head?.any fun c => !isBlank c && !isLetter c && !c.isDigit)
    (found : ∀ rest, symbol? (text.toList ++ rest) = some (token, rest))
    : Lexes text [token] := by
  intro rest
  have found := found rest
  cases characters : text.toList with
  | nil => simp [characters] at symbol
  | cons c more =>
      rw [characters] at found
      simp only [characters, List.head?_cons, Option.any_some, Bool.and_eq_true,
        Bool.not_eq_true'] at symbol
      obtain ⟨⟨visible, noLetter⟩, noDigit⟩ := symbol
      have read : token? (c :: (more ++ rest)) = some (token, rest) := by
        rw [token?, noLetter, noDigit]
        exact found
      exact tokens?_cons (by simp [visible]) read (length_lt_append (List.cons_ne_nil c more) rest)

/-- The symbol of an operator has its token. -/
theorem lexes_operator (op : Operator)
    : Lexes op.symbol [.operator op] := by
  apply lexes_symbol
  · cases op <;> rfl
  · intro rest
    cases op <;> rfl

theorem isLetter_visible {c : Char} (letter : isLetter c)
    : ¬ isBlank c := by
  intro blank
  simp only [isBlank, Bool.or_eq_true, decide_eq_true_eq] at blank
  rcases blank with ((rfl | rfl) | rfl) | rfl <;> nomatch letter

/-- A delimiter ends words and numerals. -/
theorem isDelimiter_ends {c : Char} (delimiter : isDelimiter c)
    : ¬ isWordCharacter c ∧ ¬ c.isDigit ∧ c ≠ '.' ∧ c ≠ 'e' ∧ c ≠ 'E' := by
  simp only [isDelimiter, Bool.or_eq_true, decide_eq_true_eq] at delimiter
  rcases delimiter with (((rfl | rfl) | rfl) | rfl) | rfl <;> decide

/-- A word has its token. -/
theorem spells_word {word : String} {first : Char} {others : List Char}
    (characters : word.toList = first :: others) (letter : isLetter first)
    (all : others.all isWordCharacter)
    : Spells word [ofWord word] := by
  intro rest delimited
  have whole : ∀ c ∈ first :: others, isWordCharacter c := by
    intro c member
    rcases List.mem_cons.mp member with rfl | member
    · simp [isWordCharacter, letter]
    · exact List.all_eq_true.mp all c member
  have front : rest.takeWhile isWordCharacter = [] ∧ rest.dropWhile isWordCharacter = rest := by
    cases rest with
    | nil => exact ⟨rfl, rfl⟩
    | cons c rest => simp [(isDelimiter_ends (delimited c rfl)).1]
  have read : token? (first :: (others ++ rest)) = some (ofWord word, rest) := by
    rw [token?, if_pos letter, ← List.cons_append, List.span_eq_takeWhile_dropWhile,
      List.takeWhile_append_of_pos whole, List.dropWhile_append_of_pos whole, front.1, front.2,
      List.append_nil, ← characters]
    simp only [String.ofList_toList]
  rw [characters]
  exact tokens?_cons (isLetter_visible letter) read
    (length_lt_append (List.cons_ne_nil first others) rest)

/-- The text of a keyword has its token. -/
theorem spells_keyword (k : Keyword)
    : Spells k.text [.keyword k] := by
  cases k <;> exact spells_word rfl rfl rfl

/-- A letter or an underscore and then letters, underscores and digits, but no keyword. -/
def isIdentifier (name : String) : Bool :=
  match name.toList with
  | [] => false
  | first :: others =>
      isLetter first && others.all isWordCharacter && (Keyword.ofText? name).isNone

/-- An identifier has the token of a name. -/
theorem spells_name {name : String} (identifier : isIdentifier name)
    : Spells name [.name name] := by
  unfold isIdentifier at identifier
  split at identifier
  next => cases identifier
  next first others characters =>
    simp only [Bool.and_eq_true, Option.isNone_iff_eq_none] at identifier
    obtain ⟨⟨letter, all⟩, noKeyword⟩ := identifier
    have spelled := spells_word characters letter all
    rw [ofWord, noKeyword] at spelled
    exact spelled

-----------------------------------------------------------------------------------------
-- Literals
-----------------------------------------------------------------------------------------

theorem isDigit_visible {c : Char} (digit : c.isDigit)
    : ¬ isBlank c ∧ ¬ isLetter c := by
  constructor
  · intro blank
    simp only [isBlank, Bool.or_eq_true, decide_eq_true_eq] at blank
    rcases blank with ((rfl | rfl) | rfl) | rfl <;> nomatch digit
  · intro letter
    have upperOrLower : c.isAlpha = (c.isUpper || c.isLower) := rfl
    have isUpper : c.isUpper = decide (c.val ≥ 'A'.val ∧ c.val ≤ 'Z'.val) := rfl
    have isLower : c.isLower = (decide (c.val ≥ 'a'.val) && decide (c.val ≤ 'z'.val)) := rfl
    simp only [Char.isDigit, isLetter, upperOrLower, isUpper, isLower, Bool.or_eq_true,
      Bool.and_eq_true, decide_eq_true_eq, UInt32.le_iff_toNat_le, ge_iff_le, Char.reduceVal,
      UInt32.reduceToNat] at digit letter
    rcases letter with (upper | lower) | rfl
    · omega
    · omega
    · exact absurd digit (by decide)

/-- A text that spells a decimal has the token of a numeral with the same double. -/
theorem spells_number {text : String} {d : Decimal} {rank : Fin rankLimit}
    (spelled : NumeralLayout.Spells text.toList d) (reads : d.exactRank = rank)
    : ∃ n : Numeral, Spells text [.number n] ∧ n.toBinary64 = .finite false rank := by
  obtain ⟨n, unsigned, value, ⟨first, others, characters, digit⟩, read⟩ := spelled
  refine ⟨n, ?_, ?_⟩
  · intro rest delimited
    have ends : Numeral.Ends rest := fun c head => (isDelimiter_ends (delimited c head)).2
    have found := read rest ends
    obtain ⟨visible, noLetter⟩ := isDigit_visible digit
    rw [characters, List.cons_append] at found ⊢
    have read : token? (first :: (others ++ rest)) = some (.number n, rest) := by
      rw [token?, if_neg noLetter, if_pos digit, found]
      rfl
    exact tokens?_cons visible read (length_lt_append (List.cons_ne_nil first others) rest)
  · have same : n.toBinary64 = .finite n.negative rank :=
      Decimal.toBinary64_eq_finite (value.trans reads) n.negative
    rw [same, unsigned]

/-- The text of a double has the tokens of a literal that is shown alike. -/
theorem spells_literal (x : Binary64)
    : ∃ tokens y, Spells (Number.double x).display tokens ∧ Literal tokens (.number y)
        ∧ (Number.double x).display = (Number.double y).display := by
  cases x with
  | nan => exact ⟨_, .nan, spells_keyword .nan, .nan, rfl⟩
  | infinite negative =>
      cases negative with
      | false => exact ⟨_, .infinite false, spells_keyword .infinity, .infinity, rfl⟩
      | true =>
          exact ⟨_, .infinite true, (lexes_operator .sub).append_spells (spells_keyword .infinity),
            .minusInfinity, rfl⟩
  | finite s rank =>
      obtain ⟨negative, text, d, displayed, spelled, reads, same⟩ := Number.display_finite s rank
      obtain ⟨n, spells, value⟩ := spells_number spelled reads
      rw [displayed]
      cases negative with
      | false =>
          refine ⟨[.number n], .finite false rank, ?_, ?_, displayed.symm.trans same.symm⟩
          · exact lexes_empty.append_spells spells
          · rw [← value]
            exact .number n
      | true =>
          refine ⟨[.operator .sub, .number n], .finite true rank, ?_, ?_,
            displayed.symm.trans same.symm⟩
          · exact (lexes_operator .sub).append_spells spells
          · have negated : Binary64.finite true rank = n.toBinary64.neg := by
              rw [value]
              rfl
            rw [negated]
            exact .minusNumber n

-----------------------------------------------------------------------------------------
-- Expressions
-----------------------------------------------------------------------------------------

theorem lexes_blank
    : Lexes " " [] :=
  lexes_blanks 1

theorem lexes_leftParen
    : Lexes "(" [.leftParen] :=
  lexes_symbol rfl fun _ => rfl

theorem lexes_rightParen
    : Lexes ")" [.rightParen] :=
  lexes_symbol rfl fun _ => rfl

/-- A view of tokens that shows the ones that operations are made of as they are. -/
structure ShowsOperations (view : Token → Token) : Prop where
  literal {tokens : List Token} {e : Expr} (literal : Literal tokens e) : tokens.map view = tokens
  operator (op : Operator) : view (.operator op) = .operator op
  leftParen : view .leftParen = .leftParen
  rightParen : view .rightParen = .rightParen

/-- The text of an expression in a context spells a phrase of that level: parentheses stand wherever
the operator would bind less tightly than the context. -/
theorem spells_source_viewed {view : Token → Token} (keeps : ShowsOperations view) (e : Expr)
    (names : ∀ name ∈ e.names, ∃ token, Spells name [token] ∧ view token = .name name)
    (context : Nat)
    : ∃ tokens e', Spells (e.source context) tokens ∧ Phrase context (tokens.map view) e'
        ∧ e.Alike e' := by
  have literally {tokens : List Token} {e : Expr} {level : Nat} (literal : Literal tokens e)
      : Phrase level (tokens.map view) e := by
    rw [keeps.literal literal]
    exact .literal literal
  induction e generalizing context with
  | boolean b =>
      cases b with
      | true => exact ⟨_, _, spells_keyword .yes, literally .yes, .boolean true⟩
      | false => exact ⟨_, _, spells_keyword .no, literally .no, .boolean false⟩
  | number x =>
      obtain ⟨tokens, y, spells, literal, same⟩ := spells_literal x
      exact ⟨tokens, .number y, spells, literally literal, .number same⟩
  | var name =>
      obtain ⟨token, spells, shown⟩ := names name (List.mem_singleton.mpr rfl)
      refine ⟨[token], .var name, spells, ?_, .var name⟩
      rw [List.map_singleton, shown]
      exact .literal (.var name)
  | binary op left right ihLeft ihRight =>
      rw [Expr.names, List.forall_mem_append] at names
      obtain ⟨l, left', spellsLeft, phraseLeft, alikeLeft⟩ := ihLeft names.1 (strength op)
      obtain ⟨r, right', spellsRight, phraseRight, alikeRight⟩ := ihRight names.2 (strength op + 1)
      have spells : Spells
          (left.source (strength op) ++ " " ++ op.symbol ++ " " ++ right.source (strength op + 1))
          (l ++ .operator op :: r) := by
        have operands := (((spellsLeft.append_lexes lexes_blank rfl).append
          (lexes_operator op)).append lexes_blank).append_spells spellsRight
        simpa using operands
      have viewed : (l ++ .operator op :: r).map view = l.map view ++ .operator op :: r.map view := by
        rw [List.map_append, List.map_cons, keeps.operator]
      have alike : (Expr.binary op left right).Alike (.binary op left' right') :=
        .binary alikeLeft alikeRight
      rw [Expr.source, precedence_eq_strength]
      by_cases looser : strength op < context
      · rw [if_pos looser]
        refine ⟨.leftParen :: (l ++ .operator op :: r ++ [.rightParen]), _, ?_, ?_, alike⟩
        · exact ((lexes_leftParen.append_spells spells).append_lexes lexes_rightParen rfl).spells
        · rw [List.map_cons, List.map_append, viewed, keeps.leftParen, List.map_singleton,
            keeps.rightParen]
          exact .paren (.binary (Nat.zero_le _) phraseLeft phraseRight)
      · rw [if_neg looser]
        refine ⟨_, _, spells, ?_, alike⟩
        rw [viewed]
        exact .binary (Nat.le_of_not_lt looser) phraseLeft phraseRight

/-- The source of an expression has the tokens of a phrase like the expression. -/
theorem spells_source (e : Expr) (identifiers : e.names.all isIdentifier) (context : Nat)
    : ∃ tokens e', Spells (e.source context) tokens ∧ Phrase context tokens e' ∧ e.Alike e' := by
  have keeps : ShowsOperations id := ⟨fun _ => List.map_id _, fun _ => rfl, rfl, rfl⟩
  obtain ⟨tokens, e', spells, phrase, alike⟩ := spells_source_viewed keeps e
    (fun name member => ⟨_, spells_name (List.all_eq_true.mp identifiers name member), rfl⟩) context
  rw [List.map_id] at phrase
  exact ⟨tokens, e', spells, phrase, alike⟩

-----------------------------------------------------------------------------------------
-- Statements
-----------------------------------------------------------------------------------------

end Grammar

open Grammar (isIdentifier)

mutual

/-- Whether all names in a statement, its blocks included, are identifiers. -/
def Stmt.hasIdentifiers : Stmt → Bool
  | .declare name value => isIdentifier name && value.names.all isIdentifier
  | .assign name value => isIdentifier name && value.names.all isIdentifier
  | .branch test whenTrue whenFalse =>
      test.names.all isIdentifier && Stmt.allHaveIdentifiers whenTrue
        && Stmt.allHaveIdentifiers whenFalse
  | .loop test body => test.names.all isIdentifier && Stmt.allHaveIdentifiers body
  | .print value => value.names.all isIdentifier

def Stmt.allHaveIdentifiers : List Stmt → Bool
  | [] => true
  | stmt :: rest => stmt.hasIdentifiers && Stmt.allHaveIdentifiers rest

end

namespace Grammar

/-- Indentation and line end have no tokens. -/
theorem lexes_row {text : String} {tokens : List Token} (lexes : Lexes text tokens) (depth : Nat)
    : Lexes (Writer.row depth text) tokens := by
  have row := ((lexes_blanks (4 * depth)).append lexes).append lexes_lineEnd
  rw [List.append_nil, List.nil_append] at row
  exact row

theorem lexes_equals
    : Lexes " = " [.equals] := by
  intro rest
  have found : token? ('=' :: ' ' :: rest) = some (.equals, ' ' :: rest) := rfl
  show tokens? (' ' :: '=' :: ' ' :: rest) = _
  rw [tokens?_blank (by decide), tokens?_cons (by decide) found (by simp),
    tokens?_blank (by decide)]
  rfl

theorem lexes_semicolon
    : Lexes ";" [.semicolon] :=
  lexes_symbol rfl fun _ => rfl

theorem lexes_leftBrace
    : Lexes "\x7b" [.leftBrace] :=
  lexes_symbol rfl fun _ => rfl

theorem lexes_rightBrace
    : Lexes "\x7d" [.rightBrace] :=
  lexes_symbol rfl fun _ => rfl

theorem lexes_closeHeader
    : Lexes ") \x7b" [.rightParen, .leftBrace] := by
  have parts := (lexes_rightParen.append lexes_blank).append lexes_leftBrace
  exact parts

theorem lexes_else
    : Lexes "\x7d else \x7b" [.rightBrace, .keyword .otherwise, .leftBrace] := by
  have word := (lexes_rightBrace.append lexes_blank).append_spells (spells_keyword .otherwise)
  have parts := word.append_lexes (lexes_blank.append lexes_leftBrace) rfl
  exact parts

/-- The text that a statement starts with: a keyword and what stands after it. -/
theorem lexes_opening {k : Keyword} {opening text : String} {tokens : List Token}
    (lexes : Lexes text tokens) (delimiter : text.toList.head?.any isDelimiter)
    (written : opening = k.text ++ text)
    : Lexes opening (.keyword k :: tokens) := by
  rw [written]
  exact (spells_keyword k).append_lexes lexes delimiter

/-- An expression between the texts that a statement has around it. -/
theorem lexes_between {e : Expr} {opening closing : String} {before after : List Token}
    (start : Lexes opening before) (identifiers : e.names.all isIdentifier)
    (finish : Lexes closing after) (delimiter : closing.toList.head?.any isDelimiter)
    : ∃ tokens e', Lexes (opening ++ e.source 0 ++ closing) (before ++ (tokens ++ after))
        ∧ Phrase 0 tokens e' ∧ e.Alike e' := by
  obtain ⟨tokens, e', spells, phrase, alike⟩ := spells_source e identifiers 0
  refine ⟨tokens, e', ?_, phrase, alike⟩
  rw [← List.append_assoc]
  exact (start.append_spells spells).append_lexes finish delimiter

mutual

/-- The layout of a statement is cut into the tokens of a sentence for it, at every depth. -/
theorem lexes_layout (depth : Nat)
    : (stmt : Stmt) → stmt.hasIdentifiers
      → ∃ tokens stmt', Lexes (stmt.layout depth) tokens ∧ Sentence tokens stmt' ∧ stmt.Alike stmt'
  | .declare name value, identifiers => by
      rw [Stmt.hasIdentifiers, Bool.and_eq_true] at identifiers
      have keyword : Lexes "let " [.keyword .declare] :=
        lexes_opening lexes_blank rfl rfl
      have start : Lexes ("let " ++ name ++ " = ") [.keyword .declare, .name name, .equals] :=
        (keyword.append_spells (spells_name identifiers.1)).append_lexes lexes_equals rfl
      obtain ⟨tokens, value', lexes, phrase, alike⟩ :=
        lexes_between start identifiers.2 lexes_semicolon rfl
      exact ⟨_, _, lexes_row lexes depth, .declare phrase, .declare alike⟩
  | .assign name value, identifiers => by
      rw [Stmt.hasIdentifiers, Bool.and_eq_true] at identifiers
      have start : Lexes (name ++ " = ") [.name name, .equals] :=
        (spells_name identifiers.1).append_lexes lexes_equals rfl
      obtain ⟨tokens, value', lexes, phrase, alike⟩ :=
        lexes_between start identifiers.2 lexes_semicolon rfl
      exact ⟨_, _, lexes_row lexes depth, .assign phrase, .assign alike⟩
  | .branch test whenTrue whenFalse, identifiers => by
      rw [Stmt.hasIdentifiers, Bool.and_eq_true, Bool.and_eq_true] at identifiers
      have start : Lexes "if (" [.keyword .branch, .leftParen] :=
        lexes_opening (lexes_blank.append lexes_leftParen) rfl rfl
      obtain ⟨tokens, test', header, phrase, alike⟩ :=
        lexes_between start identifiers.1.1 lexes_closeHeader rfl
      obtain ⟨inner, whenTrue', lexes, block, alikeTrue⟩ :=
        lexes_layoutAll (depth + 1) whenTrue identifiers.1.2
      have opened := (lexes_row header depth).append lexes
      have closed := lexes_row lexes_rightBrace depth
      -- Only a part with statements is written, so an empty one takes the form without it.
      cases whenFalse with
      | nil =>
          refine ⟨_, _, ?_, .branch phrase block, .branch alike alikeTrue .nil⟩
          have whole := opened.append closed
          simpa [Stmt.layout] using whole
      | cons stmt rest =>
          obtain ⟨other, whenFalse', lexesOther, otherBlock, alikeFalse⟩ :=
            lexes_layoutAll (depth + 1) (stmt :: rest) identifiers.2
          refine ⟨_, _, ?_, .branchElse phrase block otherBlock,
            .branch alike alikeTrue alikeFalse⟩
          have whole := (opened.append ((lexes_row lexes_else depth).append lexesOther)).append closed
          simpa [Stmt.layout] using whole
  | .loop test body, identifiers => by
      rw [Stmt.hasIdentifiers, Bool.and_eq_true] at identifiers
      have start : Lexes "while (" [.keyword .loop, .leftParen] :=
        lexes_opening (lexes_blank.append lexes_leftParen) rfl rfl
      obtain ⟨tokens, test', header, phrase, alike⟩ :=
        lexes_between start identifiers.1 lexes_closeHeader rfl
      obtain ⟨inner, body', lexes, block, alikeBody⟩ :=
        lexes_layoutAll (depth + 1) body identifiers.2
      refine ⟨_, _, ?_, .loop phrase block, .loop alike alikeBody⟩
      have whole := ((lexes_row header depth).append lexes).append (lexes_row lexes_rightBrace depth)
      simpa [Stmt.layout] using whole
  | .print value, identifiers => by
      rw [Stmt.hasIdentifiers] at identifiers
      have start : Lexes "print(" [.keyword .print, .leftParen] :=
        lexes_opening lexes_leftParen rfl rfl
      have finish : Lexes ");" [.rightParen, .semicolon] :=
        lexes_rightParen.append lexes_semicolon
      obtain ⟨tokens, value', lexes, phrase, alike⟩ := lexes_between start identifiers finish rfl
      exact ⟨_, _, lexes_row lexes depth, .print phrase, .print alike⟩

/-- The layout of statements has the tokens of statements like them, by recursion over the
statements. -/
theorem lexes_layoutAll (depth : Nat)
    : (stmts : List Stmt) → Stmt.allHaveIdentifiers stmts
      → ∃ tokens stmts', Lexes (Stmt.layoutAll depth stmts) tokens ∧ Block tokens stmts'
          ∧ Stmt.AllAlike stmts stmts'
  | [], _ => ⟨[], [], lexes_empty, .nil, .nil⟩
  | stmt :: rest, identifiers => by
      rw [Stmt.allHaveIdentifiers, Bool.and_eq_true] at identifiers
      obtain ⟨tokens, stmt', lexes, sentence, alike⟩ := lexes_layout depth stmt identifiers.1
      obtain ⟨others, rest', lexesRest, block, alikeRest⟩ :=
        lexes_layoutAll depth rest identifiers.2
      exact ⟨_, _, lexes.append lexesRest, .cons sentence block, .cons alike alikeRest⟩

end

end Grammar

/-- Whether all names in a program are identifiers. -/
def Program.hasIdentifiers (p : Program) : Bool :=
  Stmt.allHaveIdentifiers p.statements

/-- The source of a program parses as a program like it. -/
theorem Program.parse?_source {p : Program} (identifiers : p.hasIdentifiers)
    : ∃ parsed, Program.parse? p.source = some parsed ∧ p.Alike parsed := by
  obtain ⟨tokens, statements, lexes, block, alike⟩ :=
    Grammar.lexes_layoutAll 0 p.statements identifiers
  refine ⟨⟨statements⟩, Program.parse?_eq_some.mpr ⟨tokens, ?_, block⟩, alike⟩
  have all := lexes []
  rw [List.append_nil, ← Program.source_eq_layout, Grammar.tokens?] at all
  simpa using all

/-- The parser is that of the grammar, it reads the text of a program as that program, up to numbers
that are displayed alike, and so programs with one text are the same up to such numbers. -/
theorem Program.source_parses_back
    : (∀ text q, Program.parse? text = some q
        ↔ ∃ tokens, Grammar.tokens? text.toList = some tokens ∧ Grammar.Block tokens q.statements)
      ∧ (∀ p : Program, p.hasIdentifiers
        → ∃ parsed, Program.parse? p.source = some parsed ∧ p.Alike parsed)
      ∧ (∀ p q : Program, p.hasIdentifiers → q.hasIdentifiers → p.source = q.source
        → p.Alike q) := by
  refine ⟨fun _ _ => Program.parse?_eq_some, fun _ => Program.parse?_source, ?_⟩
  intro p q identifiers identifiers' sameText
  obtain ⟨parsed, read, alike⟩ := Program.parse?_source identifiers
  obtain ⟨parsed', read', alike'⟩ := Program.parse?_source identifiers'
  rw [← sameText, read, Option.some.injEq] at read'
  subst read'
  exact alike.join alike'

/-- A branch with an empty first part whose test compares with a zero of the given sign. -/
def Program.onZero (negative : Bool) : Program :=
  ⟨[.branch
    (.binary .and (.binary .equal (.var "x") (.number (.zero negative))) (.boolean true)) []
    [.print (.binary .sub (.var "a") (.binary .sub (.var "b") (.number (.infinite true))))]]⟩

/-- Programs with zeros of different sign have the same source, which parses as a program like both.
-/
theorem Program.source_parses_back_onZero
    : (Program.onZero true).hasIdentifiers ∧ (Program.onZero false).hasIdentifiers
      ∧ (Program.onZero true).source
        = "if (x === 0 && true) \x7b\n\x7d else \x7b\n    print(a - (b - -inf));\n\x7d\n"
      ∧ (Program.onZero true).source = (Program.onZero false).source
      ∧ (∃ parsed, Program.parse? (Program.onZero true).source = some parsed
        ∧ (Program.onZero true).Alike parsed)
      ∧ (Program.onZero true).Alike (Program.onZero false) := by
  have identifiers : (Program.onZero true).hasIdentifiers := by decide
  have identifiers' : (Program.onZero false).hasIdentifiers := by decide
  have sameText : (Program.onZero true).source = (Program.onZero false).source := by
    decide +kernel
  exact ⟨identifiers, identifiers', by decide +kernel, sameText,
    Program.source_parses_back.2.1 _ identifiers,
    Program.source_parses_back.2.2 _ _ identifiers identifiers' sameText⟩

end ScopedWhile
