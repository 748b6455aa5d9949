import ScopedWhile.Execution.Run
import ScopedWhile.Proofs.Document.Comparison
import ScopedWhile.Proofs.Document.Denotation
import ScopedWhile.Proofs.Document.Issues

/-!
The ways in which a program is loaded. A datum gives the same program, or the same issues, as a list
of nodes, as the statements of a program and as what a JSON text holds, and a run does not depend on
the way taken. JSON text differs from plain data in two points: the issue for something that is no
node has another name, and an integer beyond all doubles is read as an infinity.
-/

namespace ScopedWhile

/-- The problem that JSON text has in place of one of plain data. -/
def Problem.inJson : Problem → Problem
  | .nodeExpected _ => .nodeExpected .json
  | problem => problem

def Issue.inJson (issue : Issue) : Issue :=
  { issue with problem := issue.problem.inJson }

namespace Document

/-- No integer in a number literal is too large for a double. -/
def LiteralsFit (role : Role) (d : Datum) : Prop :=
  ∀ path n, Holds role d path .number (.number (.int n)) → (Binary64.ofInt n).isInfinite = false

-----------------------------------------------------------------------------------------
-- JSON text and plain data
-----------------------------------------------------------------------------------------

/-- Texts, booleans and operators are read alike from both, and no issue of theirs has another
name. -/
theorem readAs_json_of_word {role : Role} (word : role = .text ∨ role = .boolean ∨ role = .operator)
    (d : Datum)
    : readAs .json role d = (readAs .data role d).mapIssues Issue.inJson := by
  rcases word with rfl | rfl | rfl <;>
    simp only [readAs, readText, readBoolean, readOperator]
  all_goals
    repeat' split
    all_goals rfl

/-- Where an integer fits, a number is read from JSON text as from plain data. -/
theorem readNumber_json {d : Datum} (fits : LiteralsFit .number d)
    : readNumber .json d = (readNumber .data d).mapIssues Issue.inJson := by
  cases d with
  | number number => cases number with
    | double x => rfl
    | int n =>
        have finite := fits [] n .here
        have read (origin : Origin)
            : readNumber origin (.number (.int n)) = .ok (Binary64.ofInt n) := by
          unfold readNumber
          refine if_neg ?_
          rintro ⟨-, large⟩
          rw [finite] at large
          cases large
        rw [read .data, read .json]
        rfl
  | _ => rfl

/-- Something that is no node has its own problem in JSON text, and all others are the same. -/
theorem nodeProblem_json (d : Datum)
    : nodeProblem .json d = (nodeProblem .data d).inJson := by
  cases d with
  | object fields =>
      simp only [nodeProblem]
      split <;> rfl
  | _ => rfl

/-- JSON text and plain data are read alike at every depth, by the comparison of all parts. -/
theorem json_comparison
    : Comparison .data .json fun role f d e => e = d ∧ f = Issue.inJson ∧ LiteralsFit role d where
  flat {role f d e} related noNode noItems := by
    obtain ⟨rfl, rfl, fits⟩ := related
    cases role with
    | text | boolean | operator => exact readAs_json_of_word (by simp) e
    | number => exact readNumber_json fits
    | expr | stmt =>
        rw [readAs_of_noNode .data (by simp) noNode, readAs_of_noNode .json (by simp) noNode,
          nodeProblem_json]
        rfl
    | block =>
        change readStmts .json e = (readStmts .data e).mapIssues Issue.inJson
        rw [readStmts_of_noItems .data noItems, readStmts_of_noItems .json noItems]
        rfl
  block {f d e items} related isBlock := by
    obtain ⟨rfl, rfl, fits⟩ := related
    refine ⟨items, isBlock, rfl, fun i item other found also => ?_⟩
    obtain rfl := Option.some.inj (found.symm.trans also)
    exact ⟨Issue.inJson, ⟨rfl, rfl, fun path n holds => fits _ n (.item isBlock found holds)⟩,
      fun issue => rfl⟩
  node {f kind d e fields} related isNode := by
    obtain ⟨rfl, rfl, fits⟩ := related
    refine ⟨fields, Issue.inJson, isNode, fun issue => rfl, fun field listed => ?_⟩
    cases found : fields.find? field.spellings with
    | none => exact Or.inl ⟨rfl, rfl, rfl⟩
    | some entry =>
        obtain ⟨name, datum⟩ := entry
        exact Or.inr ⟨name, datum, name, datum, Issue.inJson, rfl, rfl,
          ⟨rfl, rfl, fun path n holds => fits _ n (.field isNode listed found holds)⟩, fun issue => rfl⟩

/-- Seeing an issue from a path does not change its problem. -/
theorem problem_of_below? {path : List Segment} {issue seen : Issue}
    (below : issue.below? path = some seen)
    : seen.problem = issue.problem := by
  fun_induction Issue.below? path issue with
  | case1 issue => rw [Option.some.inj below]
  | case2 segment rest problem path ih => exact ih below
  | case3 segment rest problem first path different => cases below
  | case4 segment rest problem => cases below

/-- Where no issue is about a number, every integer in a number literal fits. -/
theorem literalsFit_of_issues {d : Datum}
    (noNumbers : ∀ issue ∈ (readStmts .data d).issues, issue.problem ≠ .numberExpected)
    : LiteralsFit .block d := by
  intro path n holds
  have below := @Holds.issues_below .data _ _ _ _ _ holds
  cases large : (Binary64.ofInt n).isInfinite with
  | false => rfl
  | true =>
      have refused : readNumber .data (.number (.int n)) = .issue .numberExpected := by
        unfold readNumber
        exact if_pos ⟨rfl, large⟩
      change _ = (readNumber .data (.number (.int n))).issues at below
      rw [refused, issues_issue] at below
      have seen := below ▸ List.mem_singleton_self _
      obtain ⟨issue, reported, same⟩ := List.mem_filterMap.mp seen
      exact absurd (problem_of_below? same).symm (noNumbers issue reported)

-----------------------------------------------------------------------------------------
-- Nodes that are read one by one
-----------------------------------------------------------------------------------------

/-- Items that are read as statements are read as nodes one by one. -/
theorem mapM_readNode_of_items {index : Nat} {items : List Datum} {stmts : List Stmt}
    (read : readItems .data index items = .ok stmts)
    : items.mapM (readNode .data) = .ok (stmts.map Node.stmt) := by
  induction items generalizing index stmts with
  | nil =>
      rw [readItems] at read
      cases read
      rfl
  | cons item rest ih =>
      simp only [readItems, map_eq_ok, both_eq_ok, under_eq_ok] at read
      obtain ⟨⟨stmt, stmts⟩, ⟨readItem, readRest⟩, rfl⟩ := read
      have readFirst : readNode .data item = .ok (.stmt stmt) := readNode_eq_ok.mpr readItem
      rw [List.mapM_cons, readFirst, ih readRest]
      rfl

end Document

open Document

-----------------------------------------------------------------------------------------
-- All routes
-----------------------------------------------------------------------------------------

/-- The ways to run the program that a datum holds: loaded from its nodes, as the statements of a
program or as its only field, from a JSON text, from nodes that are read one by one, and as it is. -/
inductive RunTarget.Route (d : Datum) : RunTarget → Prop where
  | nodes
    : Route d (.program (Program.ofNodes d))
  | statements
    : Route d (.program (Program.ofStatements d))
  | record
    : Route d (.program (readProgram .data (.object [("statements", d)])))
  | json {source : Datum} (parsed : readJson source = .ok d) (fits : LiteralsFit .block d)
    : Route d (.program (Program.ofJson source))
  | trees {items : List Datum} (block : itemsOf? .block d = some items)
    : Route d (.trees (items.mapM (readNode .data)))
  | datum
    : Route d (.datum d)

/-- As the field of a program, a datum has the same issues below the name of the field. The second
check of loaded nodes adds none. -/
theorem Program.ofStatements_eq (d : Datum)
    : Program.ofStatements d = (Program.ofNodes d).under (.name "statements") := by
  rw [Program.ofStatements, Program.ofNodes_eq]
  cases readStmts .data d <;> rfl

/-- From JSON text a program is loaded as from the data the text holds. -/
theorem Program.ofJson_eq {source d : Datum} (parsed : readJson source = .ok d)
    (fits : LiteralsFit .block d)
    : Program.ofJson source = (Program.ofNodes d).mapIssues Issue.inJson := by
  have read : readStmts .json d = (readStmts .data d).mapIssues Issue.inJson :=
    json_comparison.readAs ⟨rfl, rfl, fits⟩
  rw [Program.ofJson_of_parsed parsed, read, Program.ofNodes_eq, mapIssues_map]

/-- Whichever way is taken, the program that is run is the one loaded, by cases over the ways. -/
theorem RunTarget.Route.resolve {d : Datum} {target : RunTarget} {p : Program}
    (route : RunTarget.Route d target) (loaded : Program.ofNodes d = .ok p)
    : target.resolve = .ok p := by
  have read := ofNodes_eq_ok.mp loaded
  cases route with
  | nodes =>
      rw [RunTarget.resolve, loaded]
      rfl
  | statements =>
      rw [RunTarget.resolve, Program.ofStatements_eq, loaded]
      rfl
  | record =>
      have whole : readProgram .data (.object [("statements", d)]) = .ok p := by
        rw [readProgram, map_eq_ok]
        exact ⟨p.statements, optional_eq_ok.mpr (Or.inl ⟨d, ⟨"statements", rfl⟩, read⟩), rfl⟩
      rw [RunTarget.resolve, whole]
      rfl
  | json parsed fits =>
      rw [RunTarget.resolve, Program.ofJson_eq parsed fits, loaded]
      rfl
  | trees block =>
      have readList := (readAs_items block).symm.trans read
      rw [RunTarget.resolve, mapM_readNode_of_items readList]
      change ((Program.ofTrees (p.statements.map Node.stmt)).mapError RunError.invalid) = _
      rw [Program.ofTrees_stmts]
      rfl
  | datum =>
      cases d with
      | list items =>
          rw [RunTarget.resolve, loaded]
          rfl
      | tuple items =>
          have asList : Program.ofNodes (.list items) = .ok p := by
            rw [ofNodes_eq_ok, ← read, readStmts, readStmts]
          rw [RunTarget.resolve, asList]
          rfl
      | _ => simp [readStmts, Checked.issue] at read

/-- A run depends on its target only through the program that it stands for. -/
theorem run_of_resolve {target other : RunTarget} (same : target.resolve = other.resolve)
    (output : Output) (recording : Bool) (limit : Nat)
    : run target output recording limit = run other output recording limit := by
  simp only [run, same]

/-- A datum is loaded as a list of nodes exactly as it is as the statements of a program, and from
JSON text exactly as from plain data, where all integers fit: the programs are equal, or the issues
are the same ones in the same order, up to the segment in front and to the name of the problem with
something that is no node. If it is loaded, a run gives the same whichever way was taken. -/
theorem Program.loading_routes_agree (d : Datum)
    : ((∃ p, Program.ofNodes d = .ok p ∧ Program.ofStatements d = .ok p)
        ∨ ∃ issues, Program.ofNodes d = .error issues
          ∧ Program.ofStatements d = .error (issues.map (Issue.under (.name "statements"))))
      ∧ (∀ source, readJson source = .ok d → LiteralsFit .block d
        → (∃ p, Program.ofNodes d = .ok p ∧ Program.ofJson source = .ok p)
          ∨ ∃ issues, Program.ofNodes d = .error issues
            ∧ Program.ofJson source = .error (issues.map Issue.inJson))
      ∧ ∀ p, Program.ofNodes d = .ok p → ∀ target, RunTarget.Route d target
        → ∀ output recording limit,
          run target output recording limit = run (.program (.ok p)) output recording limit := by
  refine ⟨?_, ?_, ?_⟩
  · rw [Program.ofStatements_eq]
    cases Program.ofNodes d with
    | ok p => exact Or.inl ⟨p, rfl, rfl⟩
    | error issues => exact Or.inr ⟨issues, rfl, rfl⟩
  · intro source parsed fits
    rw [Program.ofJson_eq parsed fits]
    cases Program.ofNodes d with
    | ok p => exact Or.inl ⟨p, rfl, rfl⟩
    | error issues => exact Or.inr ⟨issues, rfl, rfl⟩
  · intro p loaded target route output recording limit
    have resolves : target.resolve = RunTarget.resolve (.program (.ok p)) := route.resolve loaded
    exact run_of_resolve resolves output recording limit

/-- The second value of the literal is the one that counts. -/
def Json.printSeven : String :=
  "[\x7b\"kind\":\"print\",\"expression\":"
    ++ "\x7b\"kind\":\"number\",\"value\":true,\"value\":7\x7d\x7d]"

def Json.sevenAlone : String :=
  "[7,\x7b\"kind\":\"print\"\x7d]"

/-- Of two values for one key the last counts, and a number in the place of a node is reported under
its name for JSON text. -/
theorem Program.loading_routes_agree_printSeven
    : (∃ d p, readJson (.text Json.printSeven) = .ok d ∧ LiteralsFit .block d
        ∧ Program.ofNodes d = .ok p
        ∧ ∀ output recording limit,
          run (.program (Program.ofJson (.text Json.printSeven))) output recording limit
            = run (.program (.ok p)) output recording limit)
      ∧ ∃ d, readJson (.text Json.sevenAlone) = .ok d ∧ LiteralsFit .block d
        ∧ Program.ofJson (.text Json.sevenAlone)
          = .error [⟨.nodeExpected .json, [.index 0]⟩,
              ⟨.fieldMissing, [.index 1, .name "print", .name "expression"]⟩] := by
  have parses {text : String} (isJson : (readJson (.text text)).isOk = true)
      : ∃ d, readJson (.text text) = .ok d := by
    cases parsed : readJson (.text text) with
    | error issues =>
        rw [parsed] at isJson
        cases isJson
    | ok d => exact ⟨d, rfl⟩
  constructor
  · obtain ⟨d, parsed⟩ := @parses Json.printSeven (by decide +kernel)
    have loads : ((readJson (.text Json.printSeven)).bind Program.ofNodes).isOk = true := by
      decide +kernel
    rw [parsed, Except.bind] at loads
    cases loaded : Program.ofNodes d with
    | error issues =>
        rw [loaded] at loads
        cases loads
    | ok p =>
        have fits : LiteralsFit .block d := literalsFit_of_issues fun issue reported => by
          rw [ofNodes_eq_ok.mp loaded] at reported
          cases reported
        have routes := (Program.loading_routes_agree d).2.2 p loaded
        exact ⟨d, p, parsed, fits, loaded, routes _ (.json parsed fits)⟩
  · obtain ⟨d, parsed⟩ := @parses Json.sevenAlone (by decide +kernel)
    have reports : Checked.issues ((readJson (.text Json.sevenAlone)).bind Program.ofNodes)
        = [⟨.nodeExpected .data, [.index 0]⟩,
            ⟨.fieldMissing, [.index 1, .name "print", .name "expression"]⟩] := by
      decide +kernel
    rw [parsed, Except.bind] at reports
    have fits : LiteralsFit .block d := literalsFit_of_issues fun issue reported => by
      rw [← issues_map _ Program.mk, ← Program.ofNodes_eq, reports] at reported
      simp only [List.mem_cons, List.not_mem_nil, or_false] at reported
      rcases reported with rfl | rfl <;> simp
    refine ⟨d, parsed, fits, ?_⟩
    rcases (Program.loading_routes_agree d).2.1 _ parsed fits with
      ⟨p, loaded, -⟩ | ⟨issues, refused, alsoRefused⟩
    · rw [loaded] at reports
      cases reports
    · rw [alsoRefused, ← issues_of_error refused, reports]
      rfl

end ScopedWhile
