import ScopedWhile.Proofs.Source.RoundTrip

/-!
Parentheses stand only where they are required. A tree needs a pair around each operation that binds
less tightly than its context, whatever text it is derived from, and its source text has no more
than that; a text with one pair less is that of some other tree or of none.
-/

namespace ScopedWhile

namespace Grammar

-----------------------------------------------------------------------------------------
-- Expressions on their own
-----------------------------------------------------------------------------------------

/-- The words that are literals. -/
def literalWords : List String :=
  ["true", "false", "inf", "nan"]

def Keyword.isLiteral : Keyword → Bool
  | .yes | .no | .infinity | .nan => true
  | _ => false

/-- The literal keywords are those whose text is a literal word. -/
theorem Keyword.isLiteral_iff (k : Keyword)
    : k.isLiteral = true ↔ k.text ∈ literalWords := by
  cases k <;> decide

/-- In an expression the words that belong to statements are names like any other. -/
def Token.inExpression : Token → Token
  | .keyword k => if k.isLiteral then .keyword k else .name k.text
  | token => token

/-- A letter or an underscore and then letters, underscores and digits, but no literal. -/
def isOperandName (name : String) : Bool :=
  match name.toList with
  | [] => false
  | first :: others =>
      isLetter first && others.all isWordCharacter && !literalWords.contains name

end Grammar

/-- Reads an expression from its source text. -/
def Expr.parse? (text : String) : Option Expr :=
  match (Grammar.tokens? text.toList).bind fun tokens =>
      Grammar.expr? 0 (tokens.map Grammar.Token.inExpression) with
  | some (e, []) => some e
  | _ => none

/-- A text is parsed exactly to the expression that its tokens derive. -/
theorem Expr.parse?_eq_some {text : String} {e : Expr}
    : Expr.parse? text = some e
      ↔ ∃ tokens, Grammar.tokens? text.toList = some tokens
          ∧ Grammar.Phrase 0 (tokens.map Grammar.Token.inExpression) e := by
  unfold Expr.parse?
  constructor
  · intro parsed
    split at parsed
    next found =>
      cases parsed
      obtain ⟨tokens, lexed, found⟩ := Option.bind_eq_some_iff.mp found
      obtain ⟨used, split, phrase, -⟩ := Grammar.phrase_of_expr? found
      rw [List.append_nil] at split
      exact ⟨tokens, lexed, split ▸ phrase⟩
    next => cases parsed
  · rintro ⟨tokens, lexed, phrase⟩
    have found : Grammar.expr? 0 (tokens.map Grammar.Token.inExpression ++ []) = some (e, []) :=
      Grammar.expr?_phrase phrase (by simp)
    rw [List.append_nil] at found
    rw [lexed, Option.bind_some, found]

namespace Grammar

/-- The view of tokens in an expression shows operations as they are. -/
theorem inExpression_showsOperations
    : ShowsOperations Token.inExpression where
  literal literal := by cases literal <;> rfl
  operator _ := rfl
  leftParen := rfl
  rightParen := rfl

/-- A word that is no literal is a name in an expression. -/
theorem inExpression_ofWord {word : String} (plain : word ∉ literalWords)
    : (ofWord word).inExpression = .name word := by
  unfold ofWord
  split
  next k found =>
    have text : k.text = word := by simpa using List.find?_some found
    subst text
    exact if_neg fun literal => plain (k.isLiteral_iff.mp literal)
  next => rfl

/-- An operand name is a word, and no literal. -/
theorem characters_of_isOperandName {name : String} (valid : isOperandName name)
    : ∃ first others, name.toList = first :: others ∧ isLetter first
        ∧ others.all isWordCharacter ∧ name ∉ literalWords := by
  unfold isOperandName at valid
  split at valid
  next => cases valid
  next first others characters =>
    simp only [Bool.and_eq_true, Bool.not_eq_true', List.contains_eq_mem, decide_eq_false_iff_not]
      at valid
    obtain ⟨⟨letter, all⟩, plain⟩ := valid
    exact ⟨first, others, characters, letter, all, plain⟩

/-- An operand name is spelled by one token, which is a name in an expression. -/
theorem spells_operandName {name : String} (valid : isOperandName name)
    : ∃ token, Spells name [token] ∧ token.inExpression = .name name := by
  obtain ⟨first, others, characters, letter, all, plain⟩ := characters_of_isOperandName valid
  exact ⟨ofWord name, spells_word characters letter all, inExpression_ofWord plain⟩

end Grammar

/-- The source of an expression parses as an expression like it. -/
theorem Expr.parse?_source {e : Expr} (valid : ∀ name ∈ e.names, Grammar.isOperandName name)
    : ∃ parsed, Expr.parse? (e.source 0) = some parsed ∧ e.Alike parsed := by
  obtain ⟨tokens, parsed, spells, phrase, alike⟩ :=
    Grammar.spells_source_viewed Grammar.inExpression_showsOperations e
      (fun name member => Grammar.spells_operandName (valid name member)) 0
  refine ⟨parsed, Expr.parse?_eq_some.mpr ⟨tokens, ?_, phrase⟩, alike⟩
  have lexed := spells [] (by rintro _ ⟨⟩)
  rw [List.append_nil, Grammar.tokens?] at lexed
  simpa using lexed

-----------------------------------------------------------------------------------------
-- The parentheses of a text are those of its tokens
-----------------------------------------------------------------------------------------

namespace Grammar

/-- Characters without a parenthesis do not count. -/
theorem count_of_notMem {used : List Char} (none : '(' ∉ used) (rest : List Char)
    : (used ++ rest).count '(' = rest.count '(' := by
  rw [List.count_append, List.count_eq_zero.mpr none, Nat.zero_add]

/-- A symbol has as many opening parentheses as its token. -/
theorem count_of_symbol? {text rest : List Char} {token : Token}
    (found : symbol? text = some (token, rest))
    : text.count '(' = [token].count .leftParen + rest.count '(' := by
  unfold symbol? at found
  split at found <;> cases found <;> simp [Nat.add_comm]

/-- A word is no parenthesis. -/
theorem count_ofWord (word : String)
    : [ofWord word].count .leftParen = 0 := by
  unfold ofWord
  split <;> rfl

/-- What is read as a token has as many opening parentheses as the token. -/
theorem count_of_token? {text rest : List Char} {token : Token}
    (found : token? text = some (token, rest))
    : text.count '(' = [token].count .leftParen + rest.count '(' := by
  unfold token? at found
  split at found
  next => cases found
  next c others =>
    split at found
    next =>
      rw [List.span_eq_takeWhile_dropWhile] at found
      cases found
      have none : '(' ∉ (c :: others).takeWhile isWordCharacter := fun member =>
        absurd (List.all_eq_true.mp List.all_takeWhile _ member) (by decide)
      have whole := count_of_notMem none ((c :: others).dropWhile isWordCharacter)
      rw [List.takeWhile_append_dropWhile] at whole
      rw [count_ofWord, Nat.zero_add, whole]
    next =>
      split at found
      next =>
        obtain ⟨⟨n, after⟩, read, same⟩ := Option.map_eq_some_iff.mp found
        cases same
        obtain ⟨used, split, all⟩ := Numeral.leaves_of_read? read
        have none : '(' ∉ used := fun member => absurd (all '(' member) (by decide)
        rw [split, count_of_notMem none]
        simp
      next => exact count_of_symbol? found

/-- A text has as many opening parentheses as its tokens, by recursion over the text. -/
theorem count_of_tokens? {text : List Char} {tokens : List Token}
    (lexed : tokens? text = some tokens)
    : text.count '(' = tokens.count .leftParen := by
  unfold tokens? at lexed
  split at lexed
  next =>
    cases lexed
    rfl
  next c rest =>
    split at lexed
    next blank =>
      have visible : c ≠ '(' := by
        rintro rfl
        cases blank
      rw [List.count_cons_of_ne visible]
      exact count_of_tokens? lexed
    next =>
      obtain ⟨token, after, found, shorter, continued⟩ := goOn_eq_some lexed
      obtain ⟨others, lexedRest, rfl⟩ := Option.map_eq_some_iff.mp continued
      rw [count_of_token? found, count_of_tokens? lexedRest]
      exact List.count_append.symm
termination_by text.length

/-- The view of tokens in an expression shows parentheses as they are. -/
theorem count_inExpression (tokens : List Token)
    : (tokens.map Token.inExpression).count .leftParen = tokens.count .leftParen := by
  induction tokens with
  | nil => rfl
  | cons token rest ih =>
      have same : token.inExpression = .leftParen ↔ token = .leftParen := by
        cases token with
        | keyword k => cases k <;> decide
        | name | number | operator | equals | leftParen | rightParen | leftBrace | rightBrace
          | semicolon => rfl
      simp only [List.map_cons, List.count_cons, ih, beq_iff_eq, same]

end Grammar

-----------------------------------------------------------------------------------------
-- The parentheses that a tree requires
-----------------------------------------------------------------------------------------

open Grammar (strength)

/-- The pairs of parentheses that an expression requires in a context. -/
def Expr.parentheses (context : Nat) : Expr → Nat
  | .binary op left right =>
      left.parentheses (strength op) + right.parentheses (strength op + 1)
        + if strength op < context then 1 else 0
  | _ => 0

/-- A pair around an expression frees it from its context. -/
theorem Expr.parentheses_le (e : Expr) (context : Nat)
    : e.parentheses context ≤ e.parentheses 0 + 1 := by
  cases e with
  | boolean | number | var => exact Nat.zero_le _
  | binary op left right =>
      simp only [parentheses]
      split <;> omega

/-- Expressions that are alike need the same parentheses. -/
theorem Expr.Alike.parentheses_eq {e f : Expr} (alike : e.Alike f) (context : Nat)
    : e.parentheses context = f.parentheses context := by
  induction alike generalizing context with
  | boolean | number | var => rfl
  | binary _ _ ihLeft ihRight => simp only [Expr.parentheses, ihLeft, ihRight]

/-- Every text that derives an expression has the parentheses that it requires. -/
theorem Grammar.Phrase.parentheses_le {level : Nat} {tokens : List Token} {e : Expr}
    (phrase : Phrase level tokens e)
    : e.parentheses level ≤ tokens.count .leftParen := by
  induction phrase with
  | literal literal =>
      cases literal <;> exact Nat.zero_le _
  | @paren level tokens e inner ih =>
      have pair := e.parentheses_le level
      rw [List.count_cons_self, List.count_append]
      omega
  | binary binds first second ihFirst ihSecond =>
      rw [Expr.parentheses, if_neg (Nat.not_lt.mpr binds), List.count_append,
        List.count_cons_of_ne (by simp)]
      omega

/-- The source text of an expression has the parentheses that it requires and no others. -/
theorem Expr.count_source {e : Expr} (names : ∀ name ∈ e.names, '(' ∉ name.toList) (context : Nat)
    : (e.source context).toList.count '(' = e.parentheses context := by
  induction e generalizing context with
  | boolean b =>
      have word : (Value.boolean b).display.toList.count '(' = 0 := by cases b <;> decide
      exact word
  | number x => exact List.count_eq_zero.mpr (Number.not_mem_display (by decide) x)
  | var name => exact List.count_eq_zero.mpr (names name (List.mem_singleton.mpr rfl))
  | binary op left right ihLeft ihRight =>
      rw [Expr.names, List.forall_mem_append] at names
      have symbol : op.symbol.toList.count '(' = 0 := by cases op <;> rfl
      have blank : " ".toList.count '(' = 0 := rfl
      have opening : "(".toList.count '(' = 1 := rfl
      have closing : ")".toList.count '(' = 0 := rfl
      rw [Expr.source, Expr.parentheses, ← ihLeft names.1, ← ihRight names.2,
        Grammar.precedence_eq_strength]
      split
      · simp only [String.toList_append, List.count_append, symbol, blank, opening, closing]
        omega
      · simp only [String.toList_append, List.count_append, symbol, blank]
        omega

/-- A text that parses as an expression has the parentheses that the expression needs. -/
theorem Expr.parentheses_le_of_parse? {text : String} {e parsed : Expr}
    (read : Expr.parse? text = some parsed) (alike : e.Alike parsed)
    : e.parentheses 0 ≤ text.toList.count '(' := by
  obtain ⟨tokens, lexed, phrase⟩ := Expr.parse?_eq_some.mp read
  rw [Grammar.count_of_tokens? lexed, alike.parentheses_eq 0, ← Grammar.count_inExpression]
  exact phrase.parentheses_le

/-- Operand names have no parentheses. -/
theorem Grammar.isOperandName_noParenthesis {name : String} (valid : isOperandName name)
    : '(' ∉ name.toList := by
  obtain ⟨first, others, characters, letter, all, -⟩ := characters_of_isOperandName valid
  rw [characters, List.mem_cons, not_or]
  constructor
  · rintro rfl
    cases letter
  · exact fun member => absurd (List.all_eq_true.mp all _ member) (by decide)

theorem Expr.Alike.refl (e : Expr)
    : e.Alike e := by
  induction e with
  | boolean b => exact .boolean b
  | number x => exact .number rfl
  | var name => exact .var name
  | binary op left right ihLeft ihRight => exact .binary ihLeft ihRight

/-- The text of an expression is parsed to it, up to numbers that are displayed alike. Without any
one of its pairs of parentheses it is not, and no text that is has fewer. -/
theorem Expr.source_parentheses_are_required {e : Expr}
    (valid : ∀ name ∈ e.names, Grammar.isOperandName name)
    : (∃ parsed, Expr.parse? (e.source 0) = some parsed ∧ e.Alike parsed)
      ∧ (∀ before inner after : String,
        e.source 0 = before ++ "(" ++ inner ++ ")" ++ after
        → Expr.parse? (before ++ inner ++ after) ≠ some e
          ∧ ∀ parsed, Expr.parse? (before ++ inner ++ after) = some parsed → ¬ e.Alike parsed)
      ∧ ∀ text parsed, Expr.parse? text = some parsed → e.Alike parsed
        → (e.source 0).toList.count '(' ≤ text.toList.count '(' := by
  have written := Expr.count_source
    (fun name member => Grammar.isOperandName_noParenthesis (valid name member)) 0
  refine ⟨Expr.parse?_source valid, ?_, ?_⟩
  · intro before inner after split
    have fewer : (before ++ inner ++ after).toList.count '(' < e.parentheses 0 := by
      have opening : "(".toList.count '(' = 1 := rfl
      have closing : ")".toList.count '(' = 0 := rfl
      rw [split] at written
      simp only [String.toList_append, List.count_append, opening, closing] at written ⊢
      omega
    have differs (parsed : Expr) (read : Expr.parse? (before ++ inner ++ after) = some parsed)
        : ¬ e.Alike parsed := fun alike =>
      Nat.not_le_of_lt fewer (Expr.parentheses_le_of_parse? read alike)
    exact ⟨fun read => differs e read (.refl e), differs⟩
  · intro text parsed read alike
    rw [written]
    exact Expr.parentheses_le_of_parse? read alike

/-- A test with a looser operator on the left and one of the same strength on the right. -/
def Expr.twoPairs : Expr :=
  .binary .equal (.binary .or (.var "a") (.var "let"))
    (.binary .sub (.var "c") (.binary .sub (.number (.zero true)) (.number (.infinite true))))

/-- Neither pair of parentheses can be left out of the text. -/
theorem Expr.source_parentheses_are_required_twoPairs
    : (∀ name ∈ Expr.twoPairs.names, Grammar.isOperandName name)
      ∧ Expr.twoPairs.source 0 = "(a || let) === c - (0 - -inf)"
      ∧ (∃ parsed, Expr.parse? (Expr.twoPairs.source 0) = some parsed
        ∧ Expr.twoPairs.Alike parsed)
      ∧ (∀ parsed, Expr.parse? "a || let === c - (0 - -inf)" = some parsed
        → ¬ Expr.twoPairs.Alike parsed)
      ∧ ∀ parsed, Expr.parse? "(a || let) === c - 0 - -inf" = some parsed
        → ¬ Expr.twoPairs.Alike parsed := by
  have valid : ∀ name ∈ Expr.twoPairs.names, Grammar.isOperandName name := by decide
  have text : Expr.twoPairs.source 0 = "(a || let) === c - (0 - -inf)" := by decide +kernel
  obtain ⟨parses, required, -⟩ := Expr.source_parentheses_are_required valid
  exact ⟨valid, text, parses, (required "" "a || let" " === c - (0 - -inf)" text).2,
    (required "(a || let) === c - " "0 - -inf" "" text).2⟩

end ScopedWhile
