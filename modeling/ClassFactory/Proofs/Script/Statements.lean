/-
Module: ClassFactory.Proofs.Script.Statements
Purpose: Statements and programs read the calls in them in order. So in a program that was parsed no
  two calls of something by its name begin in one place.
Main exports: statement_reads, grammar_regular, parseProgram?_callStarts
-/
import ClassFactory.Proofs.Script.Elements
import ClassFactory.Proofs.Script.Expressions
import ClassFactory.Script.Parse

namespace ClassFactory.Script

/-! ## What is looked at or taken without a tree -/

theorem variableKind?_moves : Moves variableKind? := by
  refine .test (atWord_moves _) (.pure fun _ => id) (.test (atWord_moves _) (.pure fun _ => id) ?_)
  refine .test (atWord_moves _) ?_ (.pure fun _ => id)
  exact .after .lookAhead fun declares => .pure fun _ => id

theorem atFunction_moves : Moves atFunction := by
  refine .test (atWord_moves _) (.pure fun _ => id) (.test (atWord_moves _) ?_ (.pure fun _ => id))
  exact .after wordAfter_moves fun next => .pure fun _ => id

theorem atIteration_moves : Moves atIteration :=
  .test (atWord_moves _) (.pure fun _ => id) (atWord_moves _)

theorem atLabel_moves : Moves atLabel := by
  refine .get fun state => ?_
  split
  · exact .ite (.after punctAfter_moves fun mark => .pure fun _ => id) (.pure fun _ => id)
  · exact .pure fun _ => id

theorem moduleString_moves : Moves moduleString := by
  refine .get fun state => ?_
  split
  · exact advance_moves
  · exact .failure

theorem moduleName_moves : Moves moduleName := by
  refine .get fun state => ?_
  split
  · exact advance_moves
  · exact advance_moves
  · exact .failure

theorem moduleNames_moves : Moves moduleNames := by
  refine .after (expect_moves _) fun _ => Keeps.loop (fun _ _ => True) (fun read => ?_) []
  refine .test (eat_moves _) (.ends (.pure fun _ => id)) (.after tokenSpan_moves fun span =>
    .get fun state => .after moduleName_moves fun _ => .after (eatWord_moves _) fun isRenamed => ?_)
  extract_lets behind
  have later : ∀ skipped, Keeps (fun _ => True) (behind skipped)
      (Sum.elim (fun _ _ => True) fun _ _ => True) := fun skipped =>
    .test (eat_moves _) (.again (.pure fun _ => id))
      (.after (expect_moves _) fun _ => .ends (.pure fun _ => id))
  exact .ite (.after moduleName_moves fun _ => later ()) (later ())

theorem importedNames_moves : Moves importedNames := by
  refine .test (eat_moves _) (.after (expectWord_moves _) fun _ => ?_) ?_
  · exact .after variableName_moves fun name => .pure fun _ => id
  · exact .after moduleNames_moves fun names => .pure fun _ => id

theorem jumpStatement_reads : Reads jumpStatement Stmt.nodes := by
  intro done
  refine .after advance_moves fun _ => .get fun state => ?_
  extract_lets labelled behind
  have later : ∀ skipped, Keeps (Below done) (behind skipped)
      (Behind done Stmt.nodes) := fun skipped =>
    .after semicolon_moves fun _ => .gives (by simp)
  exact .ite (.after advance_moves fun _ => later ()) (later ())

section Statements

variable {parse : Grammar} (regular : parse.Regular)

include regular

theorem moduleSource_moves : Moves (moduleSource parse) := by
  refine .after moduleString_moves fun _ => .test (eatWord_moves _) ?_ (.pure fun _ => id)
  refine .after (expect_moves _) fun _ => ?_
  exact .after (objectLiteral_reads regular 0).reads.moves fun e => .pure fun _ => id

/-! ## Declarations -/

/-- A declarator is read with the calls in its pattern before those in its value. -/
theorem declarator_reads (kind : VariableKind) (inLoop : Bool) :
    Reads (declarator parse kind inLoop) Declarator.nodes := by
  intro done
  refine regular.binding.then fun binding => .test (eat_moves _) ?_
    (.ite (.gives (by simp)) .failure)
  exact (regular.assignment _).then fun value => .gives (by simp)

theorem declarators_reads (kind : VariableKind) (inLoop : Bool) :
    Reads (declarators parse kind inLoop) declaratorNodes := by
  intro done
  refine (Keeps.loop (fun read => Behind done declaratorNodes read.reverse)
    (fun read => ?_) []).weaken (by simp)
  exact (declarator_reads regular kind inLoop).then fun next =>
    .test (eat_moves _) (.again (.gives (by simp))) (.ends (.gives (by simp)))

/-- The declarators of a statement are read in order. -/
theorem variableStatement_reads (kind : VariableKind) (exported : Bool) :
    Reads (variableStatement parse kind exported) Stmt.nodes := by
  intro done
  refine .after startOffset_moves fun start => .after advance_moves fun _ =>
    (declarators_reads regular kind false).then fun declared => ?_
  exact .after semicolon_moves fun _ => .after (spanFrom_moves _) fun span => .gives (by simp)

theorem functionDeclaration_reads (named : Bool) :
    Reads (functionDeclaration parse named) Stmt.nodes := by
  intro done
  refine .after startOffset_moves fun start => .after (eatWord_moves _) fun isAsync =>
    .after (expectWord_moves _) fun _ => .after (eat_moves _) fun isGenerator =>
      .after (atPunct_moves _) fun isBare => ?_
  extract_lets behind
  have later : ∀ skipped, Keeps (Below done) (behind skipped)
      (Behind done Stmt.nodes) := fun skipped =>
    (functionRest_reads regular _ _ _).then fun function => .gives (by simp)
  exact .ite (.after variableName_moves fun name => later ()) (later ())

/-! ## Loops, conditions and jumps -/

theorem headExpression_reads : ReadsExpr (headExpression parse) := by
  intro done
  refine .after (expect_moves _) fun _ => (regular.expression true done).bind fun e => ?_
  exact .after (expect_moves _) fun _ => .pure fun _ => id

theorem expressionStatement_reads : Reads (expressionStatement parse) Stmt.nodes := by
  intro done
  refine .after startOffset_moves fun start => (regular.expression true).then fun e => ?_
  exact .after semicolon_moves fun _ => .after (spanFrom_moves _) fun span => .gives (by simp)

/-- The rest of a loop over something is read behind its head. -/
theorem iterationRest_keeps {done : List Nat} (head : Part) :
    Keeps (Behind done Part.nodes head) (iterationRest parse head) (Behind done Stmt.nodes) := by
  refine .after (eatWord_moves _) fun isOf => ?_
  extract_lets behind
  have later : ∀ source, Keeps (Behind (done ++ callStarts head.nodes) Expr.nodes source)
      (behind source) (Behind done Stmt.nodes) := fun source =>
    .after (expect_moves _) fun _ => regular.statement.then fun body => .gives (by simp)
  refine .ite ((regular.assignment true).then later) ?_
  exact .after (expectWord_moves _) fun _ => (regular.expression true).then later

theorem optionalExpression_reads (mark : String) :
    Reads (optionalExpression parse mark) partNodes := by
  intro done
  refine .test (eat_moves _) (.gives (by simp)) ((regular.expression true).then fun e => ?_)
  exact .after (expect_moves _) fun _ => .gives (by simp)

/-- The rest of a counting loop is read behind its head. -/
theorem countingRest_keeps {done : List Nat} (head : List Part) :
    Keeps (Behind done partNodes head) (countingRest parse head) (Behind done Stmt.nodes) :=
  (optionalExpression_reads regular _).then fun test =>
    (optionalExpression_reads regular _).then fun update =>
      regular.statement.then fun body => .gives (by simp)

/-- Whatever a loop counts or runs over, its head is read before its body. -/
theorem forStatement_reads : Reads (forStatement parse) Stmt.nodes := by
  intro done
  refine .after (expectWord_moves _) fun _ => .after (eatWord_moves _) fun isAwait =>
    .after (expect_moves _) fun _ => .test (eat_moves _) ?_ (.after startOffset_moves fun start =>
      .after variableKind?_moves fun kind => ?_)
  · exact (countingRest_keeps regular []).weaken (by simp)
  · split
    next kind =>
      refine .after advance_moves fun _ =>
        (declarators_reads regular kind true).then fun declared =>
        .after (spanFrom_moves _) fun span => .test atIteration_moves ?_ ?_
      · exact (iterationRest_keeps regular _).weaken (by simp)
      · exact .after (expect_moves _) fun _ => (countingRest_keeps regular _).weaken (by simp)
    next =>
      refine .get fun before => (regular.expression false).then fun e =>
        .test atIteration_moves ?_ ?_
      · split
        next target isTarget =>
          refine .bind (.modify fun _ => ⟨rfl, rfl, rfl⟩) fun _ => ?_
          exact (iterationRest_keeps regular _).weaken
            (by simp [asTarget?_callStarts e target isTarget])
        next => exact .failure
      · exact .after (expect_moves _) fun _ => (countingRest_keeps regular _).weaken (by simp)

/-- A condition is read before its branches. -/
theorem ifStatement_reads : Reads (ifStatement parse) Stmt.nodes := by
  intro done
  refine .after (expectWord_moves _) fun _ => (headExpression_reads regular).then fun test =>
    regular.statement.then fun consequent => .test (eatWord_moves _) ?_ (.gives (by simp))
  exact regular.statement.then fun alternate => .gives (by simp)

theorem headedStatement_reads (word : String) : Reads (headedStatement parse word) Stmt.nodes :=
  fun _ => .after (expectWord_moves _) fun _ => (headExpression_reads regular).then fun head =>
    regular.statement.then fun body => .gives (by simp)

theorem doStatement_reads : Reads (doStatement parse) Stmt.nodes := by
  intro done
  refine .after (expectWord_moves _) fun _ => regular.statement.then fun body =>
    .after (expectWord_moves _) fun _ => (headExpression_reads regular).then fun test => ?_
  exact .after (eat_moves _) fun isEnded => .gives (by simp)

theorem caseBody_reads : Reads (caseBody parse) partNodes := by
  intro done
  refine (Keeps.loop (fun read => Behind done partNodes read.reverse)
    (fun read => ?_) []).weaken (by simp)
  refine .test (atWord_moves _) (.ends (.gives rfl)) (.test (atWord_moves _) (.ends (.gives rfl))
    (.test (atPunct_moves _) (.ends (.gives rfl)) ?_))
  exact regular.statement.then fun next => .again (.gives (by simp))

/-- The cases of a switch are read in order. -/
theorem switchStatement_reads : Reads (switchStatement parse) Stmt.nodes := by
  intro done
  refine .after (expectWord_moves _) fun _ => (headExpression_reads regular).then fun subject =>
    .after (expect_moves _) fun _ => ?_
  refine (Keeps.loop (fun read => Behind done partNodes read)
    (fun read => ?_) [.expr subject]).weaken (by simp)
  refine .test (eat_moves _) (.ends (.gives (by simp))) (.test (eatWord_moves _) ?_ ?_)
  · refine .after (expect_moves _) fun _ => (caseBody_reads regular).then fun body => ?_
    exact .again (.gives (by simp))
  · refine .after (expectWord_moves _) fun _ => (regular.expression true).then fun test => ?_
    refine .after (expect_moves _) fun _ => (caseBody_reads regular).then fun body => ?_
    exact .again (.gives (by simp))

theorem catchClause_reads : Reads (catchClause parse) partNodes := by
  intro done
  refine .after (eat_moves _) fun isBound => ?_
  extract_lets behind
  have later : ∀ bound, Keeps (Behind done partNodes bound) (behind bound)
      (Behind done partNodes) := fun bound =>
    (block_reads regular).then fun body => .gives (by simp)
  refine .ite (regular.binding.then fun binding => .after (expect_moves _) fun _ => ?_) ?_
  all_goals exact .given (by simp) later

/-- A block that is tried is read before what catches and what comes last. -/
theorem tryStatement_reads : Reads (tryStatement parse) Stmt.nodes := by
  intro done
  refine .after (expectWord_moves _) fun _ => (block_reads regular).then fun body =>
    .after (eatWord_moves _) fun isHandled => ?_
  extract_lets behindHandler
  have handled : ∀ handled : Option (List Part),
      Keeps (Behind (done ++ callStarts (stmtNodes body)) partNodes (handled.getD []))
        (behindHandler handled) (Behind done Stmt.nodes) := by
    intro handled
    refine .after (eatWord_moves _) fun isFinal => ?_
    extract_lets behindFinalizer
    have finalized : ∀ finalized : Option (List Part),
        Keeps (Behind (done ++ callStarts (stmtNodes body) ++
          callStarts (partNodes (handled.getD []))) partNodes (finalized.getD []))
          (behindFinalizer finalized) (Behind done Stmt.nodes) :=
      fun finalized => .ite .failure (.gives (by simp))
    refine .ite ((block_reads regular).then fun statements => ?_) ?_
    all_goals exact .given (by simp) finalized
  refine .ite ((catchClause_reads regular).then fun parts => ?_) ?_
  all_goals exact .given (by simp) handled

theorem returnStatement_reads : Reads (returnStatement parse) Stmt.nodes := by
  intro done
  refine .get fun before => ?_
  extract_lets behind
  have later : ∀ skipped, Keeps (Below done) (behind skipped)
      (Behind done Stmt.nodes) := by
    intro skipped
    refine .after (expectWord_moves _) fun _ => .get fun state => ?_
    extract_lets bare
    refine .ite (.after semicolon_moves fun _ => .gives (by simp)) ?_
    refine (regular.expression true).then fun value => ?_
    exact .after semicolon_moves fun _ => .gives (by simp)
  exact .ite (.bind .failure later) (later ())

theorem throwStatement_reads : Reads (throwStatement parse) Stmt.nodes := by
  intro done
  refine .after (expectWord_moves _) fun _ => .get fun state => ?_
  extract_lets behind
  have later : ∀ skipped, Keeps (Below done) (behind skipped)
      (Behind done Stmt.nodes) := fun skipped =>
    (regular.expression true).then fun value => .after semicolon_moves fun _ => .gives (by simp)
  exact .ite (.bind .failure later) (later ())

/-! ## Modules -/

theorem importStatement_reads : Reads (importStatement parse) Stmt.nodes := by
  intro done
  refine .after (expectWord_moves _) fun _ => .get fun state => ?_
  extract_lets behind behindNames
  have source := moduleSource_moves regular
  have later : ∀ skipped, Keeps (Below done) (behind skipped)
      (Behind done Stmt.nodes) := fun skipped =>
    .after semicolon_moves fun _ => .gives (by simp)
  have named : ∀ skipped, Keeps (Below done) (behindNames skipped)
      (Behind done Stmt.nodes) := fun skipped =>
    .after (expectWord_moves _) fun _ => .after source later
  split
  · exact .after source later
  · exact .after importedNames_moves named
  · refine .after variableName_moves fun name => .after (eat_moves _) fun isMore => ?_
    exact .ite (.after importedNames_moves named) (named ())

theorem defaultExport_reads : Reads (defaultExport parse) Stmt.nodes := by
  intro done
  refine .test atFunction_moves (functionDeclaration_reads regular false done)
    (.test (atWord_moves _) ?_ ?_)
  · exact (classExpression_reads regular).then fun e => .gives (by simp)
  · refine (regular.assignment true).then fun e => ?_
    exact .after semicolon_moves fun _ => .gives (by simp)

omit regular in
/-- Exported names call nothing. -/
theorem callStarts_exported (names : List (Option (String × Span))) :
    callStarts ((names.filterMap fun name =>
      name.map fun (text, span) => Part.expr (.ident text span)).flatMap Part.nodes) = [] := by
  induction names with
  | nil => rfl
  | cons name rest ih => cases name <;> simpa using ih

theorem exportedNames_reads : Reads (exportedNames parse) Stmt.nodes := by
  intro done
  refine .after moduleNames_moves fun names => .after (eatWord_moves _) fun isForeign => ?_
  extract_lets behind
  have later : ∀ skipped, Keeps (Below done) (behind skipped)
      (Behind done Stmt.nodes) := by
    intro skipped
    refine .after semicolon_moves fun _ => .ite (.gives (by simp)) (.gives ?_)
    simpa using callStarts_exported names
  exact .ite (.after (moduleSource_moves regular) later) (later ())

theorem exportedModule_reads : Reads (exportedModule parse) Stmt.nodes := by
  intro done
  refine .after (expect_moves _) fun _ => .after (eatWord_moves _) fun isNamed => ?_
  extract_lets behind
  have later : ∀ skipped, Keeps (Below done) (behind skipped)
      (Behind done Stmt.nodes) := fun skipped =>
    .after (expectWord_moves _) fun _ => .after (moduleSource_moves regular) fun _ =>
      .after semicolon_moves fun _ => .gives (by simp)
  exact .ite (.after moduleName_moves later) (later ())

/-- What is exported is read as it is without the word. -/
theorem exportStatement_reads : Reads (exportStatement parse) Stmt.nodes := by
  intro done
  refine .after (expectWord_moves _) fun _ =>
    .test (eatWord_moves _) (defaultExport_reads regular done)
      (.test (atPunct_moves _) (exportedNames_reads regular done)
        (.test (atPunct_moves _) (exportedModule_reads regular done) ?_))
  refine .after variableKind?_moves fun kind => ?_
  split
  · exact variableStatement_reads regular _ true done
  · refine .test atFunction_moves (functionDeclaration_reads regular true done) ?_
    have isClass : Moves exportStatement.expectClass :=
      .test (atWord_moves _) (.pure fun _ => id) .failure
    exact .after isClass fun _ => (classExpression_reads regular).then fun e => .gives (by simp)

/-! ## Statements and programs -/

/-- A word that begins a statement tells how to read it. -/
theorem wordStatement?_reads {word : String} {known : Parser Stmt}
    (is : wordStatement? parse word = some known) : Reads known Stmt.nodes := by
  unfold wordStatement? at is
  split at is <;> cases is
  · exact ifStatement_reads regular
  · exact forStatement_reads regular
  · exact headedStatement_reads regular _
  · exact headedStatement_reads regular _
  · exact doStatement_reads regular
  · exact switchStatement_reads regular
  · exact tryStatement_reads regular
  · exact returnStatement_reads regular
  · exact throwStatement_reads regular
  · exact jumpStatement_reads
  · exact jumpStatement_reads
  · exact jumpStatement_reads
  · exact exportStatement_reads regular
  · exact functionDeclaration_reads regular true

/-- A statement is one that a word tells, or a label with one, or an expression. -/
theorem plainStatement_reads : Reads (plainStatement parse) Stmt.nodes := by
  intro done
  have expression := expressionStatement_reads regular done
  refine .after variableKind?_moves fun kind => ?_
  split
  · exact variableStatement_reads regular _ false done
  refine .test atFunction_moves (functionDeclaration_reads regular true done)
    (.test (atWord_moves _) ?_ (.test (atWord_moves _) ?_ (.test atLabel_moves ?_ expression)))
  · exact (classExpression_reads regular).then fun e => .gives (by simp)
  · refine .after punctAfter_moves fun mark => ?_
    split
    · exact expression
    · exact expression
    · exact importStatement_reads regular done
  · exact .after advance_moves fun _ => .after advance_moves fun _ => regular.statement done

/-- Every statement is read in order. -/
theorem statement_reads : Reads (statement parse) Stmt.nodes := by
  intro done
  refine .get fun state => ?_
  split
  · exact (block_reads regular).then fun statements => .gives (by simp)
  · exact .after advance_moves fun _ => .gives (by simp)
  · split
    next known is => exact wordStatement?_reads regular is done
    next => exact plainStatement_reads regular done
  · exact plainStatement_reads regular done

/-- The statements of a program are read in order. -/
theorem programBody_reads : Reads (programBody parse) stmtNodes := by
  intro done
  refine (Keeps.loop (fun read => Behind done stmtNodes read.reverse)
    (fun read => .get fun state => ?_) []).weaken (by simp)
  split
  · exact .ends (.gives rfl)
  · exact regular.statement.then fun next => .again (.gives (by simp))

end Statements

/-- One part of the grammar reads calls in order if those that it calls do. -/
theorem grammarStep_regular {parse : Grammar} (regular : parse.Regular) :
    Grammar.Regular (grammarStep parse) where
  expression := commaExpression_reads regular
  assignment := assignmentExpression_reads regular
  binary := binaryExpression_reads regular
  unary := unaryExpression_reads regular
  constructee := constructeeExpression_reads regular
  binding := parseBinding_reads regular
  statement := statement_reads regular
  element := elementExpression_reads regular

/-- However deep its parts may nest, the grammar reads calls in order. -/
theorem grammar_regular (depth : Nat) : (grammar depth).Regular := by
  induction depth with
  | zero =>
      exact ⟨fun _ _ => .failure, fun _ _ => .failure, fun _ _ _ => .failure, fun _ => .failure,
        fun _ => .failure, fun _ => .failure, fun _ => .failure, fun _ _ => .failure⟩
  | succ depth ih => exact grammarStep_regular ih

/-- In a program that was parsed, the calls of something by its name begin one after another. -/
theorem parseProgram?_callStarts {source : String} {program : Program}
    (parsed : parseProgram? source = some program) :
    (callStarts program.nodes).Pairwise (· < ·) := by
  obtain ⟨⟨_, last⟩, ran, rfl⟩ := Option.map_eq_some_iff.mp parsed
  have reads : Reads (settle >>= fun _ =>
      programBody (grammar (4 * (startState source).budget + 16)) >>= fun body =>
        get >>= fun state => if state.unclaimedDefault then failure
          else pure { body := body.dropWhile isDirective, comments := state.comments.reverse })
      Program.nodes := fun done =>
    .after settle_moves fun _ => (programBody_reads (grammar_regular _)).then fun body =>
      .get fun state => .ite .failure (.gives (by simp [Program.nodes]))
  have sound : (startState source).Sound := .refl nofun
  exact (reads [] (startState source) _ last sound .nil ran).2.2.sorted

end ClassFactory.Script
