import ScopedWhile.Proofs.Source.Grammar

/-!
The parser accepts exactly the grammar: it finds the tree of every derivation, whatever follows the
tokens that were derived, and what it accepts has a derivation. Hence no tokens derive two trees.
-/

namespace ScopedWhile

namespace Grammar

section
variable {σ α β : Type} {input : List σ} {part : Option (α × List σ)}
  {next : α → (rest : List σ) → rest.length < input.length → Option β}

/-- Parsing goes on after a part that has taken something. -/
theorem goOn_some {a : α} {rest : List σ} (found : part = some (a, rest))
    (shorter : rest.length < input.length)
    : goOn input part next = next a rest shorter := by
  subst found
  exact dif_pos shorter

/-- If parsing went on, the part was there and has taken something. -/
theorem goOn_eq_some {b : β} (result : goOn input part next = some b)
    : ∃ a rest, part = some (a, rest) ∧ ∃ shorter, next a rest shorter = some b := by
  unfold goOn at result
  split at result
  next a rest =>
    split at result
    next shorter => exact ⟨a, rest, rfl, shorter, result⟩
    next => nomatch result
  next => nomatch result

end

-----------------------------------------------------------------------------------------
-- Expressions that are derived are parsed
-----------------------------------------------------------------------------------------

/-- What follows does not start with an operator that binds more tightly than a level. -/
def Loose (level : Nat) (rest : List Token) : Prop :=
  ∀ op others, rest = .operator op :: others → strength op ≤ level

/-- A literal is parsed as an operand. -/
theorem operand?_literal {tokens : List Token} {e : Expr} (literal : Literal tokens e)
    (rest : List Token)
    : operand? (tokens ++ rest) = some (e, rest) := by
  have read : literal? (tokens ++ rest) = some (e, rest) := by
    cases literal <;> rfl
  have noParen : ∀ inner, tokens ++ rest ≠ .leftParen :: inner := by
    cases literal <;> simp
  rw [operand?, read]
  exact noParen

theorem Literal.ne_nil {tokens : List Token} {e : Expr} (literal : Literal tokens e)
    : tokens ≠ [] := by
  cases literal <;> simp

theorem length_lt_append {σ : Type} {front : List σ} (nonempty : front ≠ []) (rest : List σ)
    : rest.length < (front ++ rest).length := by
  have := List.length_pos_iff.mpr nonempty
  rw [List.length_append]
  omega

/-- Operations stop before an operator that binds less tightly than the context. -/
theorem operations?_stop {context : Nat} {rest : List Token}
    (stop : ∀ op others, rest = .operator op :: others → strength op < context) (e : Expr)
    : operations? context e rest = some (e, rest) := by
  unfold operations?
  split
  next op after => rw [if_neg (Nat.not_le_of_lt (stop op after rfl))]
  next => rfl

/-- A phrase is parsed up to its end, where the operations after it go on. By induction over the
phrase. -/
theorem expr?_append {level : Nat} {tokens : List Token} {e : Expr} (phrase : Phrase level tokens e)
    {context : Nat} (le : context ≤ level) {rest : List Token} (loose : Loose level rest)
    : expr? context (tokens ++ rest) = operations? context e rest := by
  induction phrase generalizing context rest with
  | literal literal =>
      rw [expr?, goOn_some (operand?_literal literal rest) (length_lt_append literal.ne_nil rest)]
  | @paren level tokens e inner ih =>
      have closed : expr? 0 (tokens ++ .rightParen :: rest) = some (e, .rightParen :: rest) := by
        rw [ih (Nat.le_refl 0) (by rintro _ _ ⟨⟩)]
        exact operations?_stop (by rintro _ _ ⟨⟩) e
      have operand : operand? (.leftParen :: (tokens ++ [.rightParen]) ++ rest) = some (e, rest) := by
        rw [List.cons_append, List.append_assoc, operand?, List.singleton_append, closed]
      rw [expr?, goOn_some operand (length_lt_append (by simp) rest)]
  | @binary level op l r left right binds first second ihFirst ihSecond =>
      have looseRight : Loose (strength op + 1) rest := fun other others same =>
        Nat.le_trans (loose other others same) (Nat.le_succ_of_le binds)
      have operand : expr? (strength op + 1) (r ++ rest) = some (right, rest) := by
        rw [ihSecond (Nat.le_refl _) looseRight]
        apply operations?_stop
        intro other others same
        exact Nat.lt_succ_of_le (Nat.le_trans (loose other others same) binds)
      have shorter : rest.length < (Token.operator op :: (r ++ rest)).length := by
        simp only [List.length_cons, List.length_append]
        omega
      rw [List.append_assoc, List.cons_append,
        ihFirst (Nat.le_trans le binds) (fun other others same => by cases same; exact Nat.le_refl _),
        operations?, if_pos (Nat.le_trans le binds), goOn_some operand shorter]

-----------------------------------------------------------------------------------------
-- Expressions that are parsed are derived
-----------------------------------------------------------------------------------------

/-- What is parsed as a literal is one. -/
theorem literal_of_literal? {tokens rest : List Token} {e : Expr}
    (parsed : literal? tokens = some (e, rest))
    : ∃ used, tokens = used ++ rest ∧ Literal used e := by
  unfold literal? at parsed
  split at parsed <;> cases parsed
  · exact ⟨_, rfl, .yes⟩
  · exact ⟨_, rfl, .no⟩
  · exact ⟨_, rfl, .infinity⟩
  · exact ⟨_, rfl, .minusInfinity⟩
  · exact ⟨_, rfl, .nan⟩
  · exact ⟨_, rfl, .number _⟩
  · exact ⟨_, rfl, .minusNumber _⟩
  · exact ⟨_, rfl, .var _⟩

mutual

/-- What is parsed as an operand is a phrase of every level. -/
theorem phrase_of_operand? {tokens rest : List Token} {e : Expr}
    (parsed : operand? tokens = some (e, rest))
    : ∃ used, tokens = used ++ rest ∧ ∀ level, Phrase level used e := by
  unfold operand? at parsed
  split at parsed
  next inner =>
    split at parsed
    next found =>
      cases parsed
      obtain ⟨used, rfl, phrase, -⟩ := phrase_of_expr? found
      exact ⟨.leftParen :: (used ++ [.rightParen]), by simp, fun _ => .paren phrase⟩
    next => nomatch parsed
  next =>
    obtain ⟨used, rfl, literal⟩ := literal_of_literal? parsed
    exact ⟨used, rfl, fun _ => .literal literal⟩
termination_by (tokens.length, 0)

/-- What is parsed as an expression is a phrase, and no operator that would belong to it follows. -/
theorem phrase_of_expr? {context : Nat} {tokens rest : List Token} {e : Expr}
    (parsed : expr? context tokens = some (e, rest))
    : ∃ used, tokens = used ++ rest ∧ Phrase context used e
        ∧ ∀ op others, rest = .operator op :: others → strength op < context := by
  rw [expr?] at parsed
  obtain ⟨left, after, found, shorter, continued⟩ := goOn_eq_some parsed
  obtain ⟨before, rfl, phrase⟩ := phrase_of_operand? found
  exact phrase_of_operations? (phrase context) (fun op _ _ => phrase (strength op)) continued
termination_by (tokens.length, 1)

/-- What has been read is a phrase of the context, and of the level of the operator that comes next:
a tighter operator would have been read into the right operand before it. -/
theorem phrase_of_operations? {context : Nat} {left : Expr} {before tokens rest : List Token}
    {e : Expr} (phrase : Phrase context before left)
    (next : ∀ op others, tokens = .operator op :: others → Phrase (strength op) before left)
    (parsed : operations? context left tokens = some (e, rest))
    : ∃ used, before ++ tokens = used ++ rest ∧ Phrase context used e
        ∧ ∀ op others, rest = .operator op :: others → strength op < context := by
  unfold operations? at parsed
  split at parsed
  next op after =>
    split at parsed
    next binds =>
      obtain ⟨right, later, found, shorter, continued⟩ := goOn_eq_some parsed
      obtain ⟨used, rfl, second, stop⟩ := phrase_of_expr? found
      have first := next op _ rfl
      have regroup : before ++ .operator op :: (used ++ later)
          = (before ++ .operator op :: used) ++ later := by simp
      rw [regroup]
      refine phrase_of_operations? (.binary binds first second) ?_ continued
      intro other others same
      exact .binary (Nat.le_of_lt_succ (stop other others same)) first second
    next free =>
      cases parsed
      refine ⟨before, rfl, phrase, ?_⟩
      rintro _ _ ⟨⟩
      exact Nat.lt_of_not_le free
  next other =>
    cases parsed
    exact ⟨before, rfl, phrase, fun op others same => absurd same (other op others)⟩
termination_by (tokens.length, 0)

end

-----------------------------------------------------------------------------------------
-- Statements that are derived are parsed
-----------------------------------------------------------------------------------------

/-- An expression is parsed up to a token that is not an operator. -/
theorem expr?_phrase {tokens : List Token} {e : Expr} (phrase : Phrase 0 tokens e)
    {rest : List Token} (stop : ∀ op others, rest ≠ .operator op :: others)
    : expr? 0 (tokens ++ rest) = some (e, rest) := by
  rw [expr?_append phrase (Nat.le_refl 0) fun op others same => absurd same (stop op others)]
  exact operations?_stop (fun op others same => absurd same (stop op others)) e

/-- A phrase between parentheses is parsed as a test. -/
theorem test?_phrase {tokens : List Token} {test : Expr} (phrase : Phrase 0 tokens test)
    (rest : List Token)
    : test? (.leftParen :: (tokens ++ .rightParen :: .leftBrace :: rest)) = some (test, rest) := by
  rw [test?, expr?_phrase phrase (by simp)]

/-- A statement starts with neither a closing brace nor an else. -/
theorem Sentence.head {tokens : List Token} {stmt : Stmt} (sentence : Sentence tokens stmt)
    : ∃ first others, tokens = first :: others ∧ first ≠ .rightBrace
        ∧ first ≠ .keyword .otherwise := by
  cases sentence <;> exact ⟨_, _, rfl, by simp, by simp⟩

/-- What may follow a list of statements: the end or a closing brace. -/
def Closed (rest : List Token) : Prop :=
  rest = [] ∨ ∃ others, rest = .rightBrace :: others

/-- No else follows after statements. -/
theorem Block.head_ne_otherwise {tokens : List Token} {stmts : List Stmt} (block : Block tokens stmts)
    {rest : List Token} (closed : Closed rest)
    : ∀ others, tokens ++ rest ≠ .keyword .otherwise :: others := by
  intro others same
  cases block with
  | nil =>
      rcases closed with rfl | ⟨_, rfl⟩
      · nomatch same
      · nomatch same
  | cons first =>
      obtain ⟨token, _, rfl, -, different⟩ := first.head
      exact different (List.cons.inj same).1

theorem endOfPart?_another (rest : List Token)
    : endOfPart? (.rightBrace :: .keyword .otherwise :: .leftBrace :: rest) = some (true, rest) :=
  rfl

/-- Without an else the closing brace ends the last part. -/
theorem endOfPart?_last {rest : List Token}
    (noElse : ∀ others, rest ≠ .keyword .otherwise :: others)
    : endOfPart? (.rightBrace :: rest) = some (false, rest) := by
  unfold endOfPart?
  split
  next same =>
    cases same
    exact absurd rfl (noElse _)
  next same =>
    cases same
    rfl
  next different => exact absurd rfl (different rest)

mutual

/-- A derived statement is parsed, if no else follows. By recursion over its derivation. -/
theorem stmt?_sentence {tokens rest : List Token} {stmt : Stmt}
    (noElse : ∀ others, rest ≠ .keyword .otherwise :: others)
    : Sentence tokens stmt → stmt? (tokens ++ rest) = some (stmt, rest)
  | @Sentence.declare name tokens value phrase => by
      have parsed : expr? 0 (tokens ++ .semicolon :: rest) = some (value, .semicolon :: rest) :=
        expr?_phrase phrase (by simp)
      simp only [List.cons_append, List.append_assoc, List.nil_append, stmt?, parsed]
  | @Sentence.assign name tokens value phrase => by
      have parsed : expr? 0 (tokens ++ .semicolon :: rest) = some (value, .semicolon :: rest) :=
        expr?_phrase phrase (by simp)
      simp only [List.cons_append, List.append_assoc, List.nil_append, stmt?, parsed]
  | @Sentence.print tokens value phrase => by
      have parsed : expr? 0 (tokens ++ .rightParen :: .semicolon :: rest)
          = some (value, .rightParen :: .semicolon :: rest) :=
        expr?_phrase phrase (by simp)
      simp only [List.cons_append, List.append_assoc, List.nil_append, stmt?, parsed]
  | @Sentence.loop tokens inner test body phrase block => by
      have header := test?_phrase phrase (inner ++ .rightBrace :: rest)
      have parsed : stmts? (inner ++ .rightBrace :: rest) = some (body, .rightBrace :: rest) :=
        stmts?_block (Or.inr ⟨rest, rfl⟩) block
      simp only [List.cons_append, List.append_assoc, List.nil_append, stmt?]
      rw [goOn_some header (by simp; omega)]
      simp only [parsed]
  | @Sentence.branch tokens inner test whenTrue phrase block => by
      have header := test?_phrase phrase (inner ++ .rightBrace :: rest)
      have parsed : stmts? (inner ++ .rightBrace :: rest) = some (whenTrue, .rightBrace :: rest) :=
        stmts?_block (Or.inr ⟨rest, rfl⟩) block
      simp only [List.cons_append, List.append_assoc, List.nil_append, stmt?]
      rw [goOn_some header (by simp; omega), goOn_some parsed (by simp; omega),
        goOn_some (endOfPart?_last noElse) (by simp; omega)]
      rfl
  | @Sentence.branchElse tokens inner other test whenTrue whenFalse phrase block otherBlock => by
      have header := test?_phrase phrase
        (inner ++ .rightBrace :: .keyword .otherwise :: .leftBrace :: (other ++ .rightBrace :: rest))
      have parsed := stmts?_block
        (Or.inr ⟨.keyword .otherwise :: .leftBrace :: (other ++ .rightBrace :: rest), rfl⟩) block
      have parsedOther : stmts? (other ++ .rightBrace :: rest) = some (whenFalse, .rightBrace :: rest) :=
        stmts?_block (Or.inr ⟨rest, rfl⟩) otherBlock
      simp only [List.cons_append, List.append_assoc, List.nil_append, stmt?]
      rw [goOn_some header (by simp; omega), goOn_some parsed (by simp; omega),
        goOn_some (endOfPart?_another _) (by simp; omega), if_pos rfl, parsedOther]

/-- Derived statements are parsed up to the end or the closing brace. -/
theorem stmts?_block {tokens rest : List Token} {stmts : List Stmt} (closed : Closed rest)
    : Block tokens stmts → stmts? (tokens ++ rest) = some (stmts, rest)
  | .nil => by
      rcases closed with rfl | ⟨others, rfl⟩
      · rw [List.nil_append, stmts?]
      · rw [List.nil_append, stmts?]
  | @Block.cons tokens others stmt stmts first block => by
      have parsed := stmt?_sentence (block.head_ne_otherwise closed) first
      have parsedRest := stmts?_block closed block
      obtain ⟨token, more, rfl, different, -⟩ := first.head
      have shorter := length_lt_append (List.cons_ne_nil token more) (others ++ rest)
      rw [List.cons_append] at parsed shorter
      rw [List.append_assoc, List.cons_append, stmts?, goOn_some parsed shorter, parsedRest]
      · rfl
      · exact different

end

-----------------------------------------------------------------------------------------
-- Statements that are parsed are derived
-----------------------------------------------------------------------------------------

/-- What is parsed as a test is a phrase between parentheses. -/
theorem phrase_of_test? {tokens rest : List Token} {test : Expr}
    (parsed : test? tokens = some (test, rest))
    : ∃ used, tokens = .leftParen :: (used ++ .rightParen :: .leftBrace :: rest)
        ∧ Phrase 0 used test := by
  unfold test? at parsed
  split at parsed
  next =>
    split at parsed
    next found =>
      cases parsed
      obtain ⟨used, rfl, phrase, -⟩ := phrase_of_expr? found
      exact ⟨used, rfl, phrase⟩
    next => nomatch parsed
  next => nomatch parsed

/-- What is parsed as the end of a part is a closing brace, with an else if there is another part.
-/
theorem tokens_of_endOfPart? {tokens rest : List Token} {another : Bool}
    (parsed : endOfPart? tokens = some (another, rest))
    : tokens = .rightBrace
        :: ((if another then [.keyword .otherwise, .leftBrace] else []) ++ rest) := by
  unfold endOfPart? at parsed
  split at parsed <;> cases parsed <;> rfl

/-- One statement, given what is known of the blocks inside it. -/
theorem sentence_of_stmt? {tokens rest : List Token} {stmt : Stmt}
    (blocks : ∀ {inner rest stmts}, inner.length < tokens.length
      → stmts? inner = some (stmts, rest) → ∃ used, inner = used ++ rest ∧ Block used stmts)
    (parsed : stmt? tokens = some (stmt, rest))
    : ∃ used, tokens = used ++ rest ∧ Sentence used stmt := by
  unfold stmt? at parsed
  split at parsed
  next name tokens =>
    split at parsed
    next found =>
      cases parsed
      obtain ⟨used, rfl, phrase, -⟩ := phrase_of_expr? found
      exact ⟨_, by simp, .declare phrase⟩
    next => cases parsed
  next name tokens =>
    split at parsed
    next found =>
      cases parsed
      obtain ⟨used, rfl, phrase, -⟩ := phrase_of_expr? found
      exact ⟨_, by simp, .assign phrase⟩
    next => cases parsed
  next tokens =>
    split at parsed
    next found =>
      cases parsed
      obtain ⟨used, rfl, phrase, -⟩ := phrase_of_expr? found
      exact ⟨_, by simp, .print phrase⟩
    next => cases parsed
  next tokens =>
    obtain ⟨test, inner, header, shorter, continued⟩ := goOn_eq_some parsed
    split at continued
    next found =>
      cases continued
      obtain ⟨body, rfl, block⟩ := blocks (Nat.lt_succ_of_lt shorter) found
      obtain ⟨used, rfl, phrase⟩ := phrase_of_test? header
      exact ⟨_, by simp, .loop phrase block⟩
    next => cases continued
  next tokens =>
    obtain ⟨test, inner, header, shorter, afterTest⟩ := goOn_eq_some parsed
    obtain ⟨whenTrue, after, found, shorter', afterPart⟩ := goOn_eq_some afterTest
    obtain ⟨another, last, ending, shorter'', continued⟩ := goOn_eq_some afterPart
    obtain ⟨first, rfl, block⟩ := blocks (Nat.lt_succ_of_lt shorter) found
    obtain rfl := tokens_of_endOfPart? ending
    cases another with
    | true =>
        rw [if_pos rfl] at continued
        split at continued
        next foundOther =>
          cases continued
          obtain ⟨other, rfl, otherBlock⟩ := blocks (Nat.lt_succ_of_lt shorter'') foundOther
          obtain ⟨used, rfl, phrase⟩ := phrase_of_test? header
          exact ⟨_, by simp, .branchElse phrase block otherBlock⟩
        next => cases continued
    | false =>
        cases continued
        obtain ⟨used, rfl, phrase⟩ := phrase_of_test? header
        exact ⟨_, by simp, .branch phrase block⟩
  next => cases parsed

/-- What is parsed as statements is derived. -/
theorem block_of_stmts? {tokens rest : List Token} {stmts : List Stmt}
    (parsed : stmts? tokens = some (stmts, rest))
    : ∃ used, tokens = used ++ rest ∧ Block used stmts := by
  unfold stmts? at parsed
  split at parsed
  next =>
    cases parsed
    exact ⟨[], rfl, .nil⟩
  next =>
    cases parsed
    exact ⟨[], rfl, .nil⟩
  next first more _ =>
    obtain ⟨stmt, after, found, shorter, continued⟩ := goOn_eq_some parsed
    obtain ⟨⟨others, rest⟩, foundRest, same⟩ := Option.map_eq_some_iff.mp continued
    cases same
    obtain ⟨used, split, sentence⟩ :=
      sentence_of_stmt? (fun smaller inside => block_of_stmts? inside) found
    obtain ⟨usedRest, rfl, block⟩ := block_of_stmts? foundRest
    exact ⟨used ++ usedRest, by rw [split, List.append_assoc], .cons sentence block⟩
termination_by tokens.length

end Grammar

/-- A text is parsed exactly to the programs that its tokens derive. -/
theorem Program.parse?_eq_some {text : String} {p : Program}
    : Program.parse? text = some p
      ↔ ∃ tokens, Grammar.tokens? text.toList = some tokens
          ∧ Grammar.Block tokens p.statements := by
  unfold Program.parse?
  constructor
  · intro parsed
    split at parsed
    next found =>
      cases parsed
      obtain ⟨tokens, lexed, found⟩ := Option.bind_eq_some_iff.mp found
      obtain ⟨used, rfl, block⟩ := Grammar.block_of_stmts? found
      rw [List.append_nil] at lexed
      exact ⟨used, lexed, block⟩
    next => nomatch parsed
  · rintro ⟨tokens, lexed, block⟩
    have found := Grammar.stmts?_block (Or.inl rfl) block
    rw [List.append_nil] at found
    rw [lexed, Option.bind_some, found]

end ScopedWhile
