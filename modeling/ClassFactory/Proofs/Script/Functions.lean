/-
Module: ClassFactory.Proofs.Script.Functions
Purpose: Functions, methods, object literals and classes read the calls in them in order.
Main exports: statementList_reads, functionRest_reads, functionExpression_reads,
  objectLiteral_reads, classExpression_reads
-/
import ClassFactory.Proofs.Script.Bindings

namespace ClassFactory.Script

section Functions

variable {parse : Grammar} (regular : parse.Regular)

include regular

/-- Statements are read in order as long as there are any. -/
theorem statementList_reads : Reads (statementList parse) stmtNodes := by
  intro done
  refine (Keeps.loop (fun read => Behind done stmtNodes read.reverse)
    (fun read => ?_) []).weaken (by simp)
  refine .test (eat_moves _) (.ends (.gives rfl)) ?_
  exact regular.statement.then fun next => .again (.gives (by simp))

theorem block_reads : Reads (block parse) stmtNodes :=
  fun done => .after (expect_moves _) fun _ => statementList_reads regular done

theorem functionBody_reads : Reads (functionBody parse) stmtNodes :=
  fun _ => (block_reads regular).then fun _ => .gives (by simp)

/-- A function is read with the calls in its parameters before those in its body. -/
theorem functionRest_reads (start : Nat) (isAsync isGenerator : Bool) :
    ReadsExpr (functionRest parse start isAsync isGenerator) := by
  intro done
  have inside : Reads (parameterList parse >>= fun params => functionBody parse >>= fun body =>
      pure (params, body)) fun both => parameterNodes both.1 ++ stmtNodes both.2 := fun done =>
    (parameterList_reads regular).then fun params =>
      (functionBody_reads regular).then fun body => .gives (by simp)
  refine (Keeps.withSettings (inside done)).bind fun both => ?_
  exact .after (spanFrom_moves _) fun span => .givesExpr (by simp) rfl

theorem methodFunction_reads (isAsync isGenerator : Bool) :
    ReadsExpr (methodFunction parse isAsync isGenerator) :=
  fun done => .after startOffset_moves fun start => functionRest_reads regular start _ _ done

theorem functionExpression_reads (start : Nat) (isAsync : Bool) :
    ReadsExpr (functionExpression parse start isAsync) := by
  intro done
  refine .after (expectWord_moves _) fun _ => .after (eat_moves _) fun isGenerator =>
    .after (atPunct_moves _) fun bare => ?_
  have rest := functionRest_reads regular start isAsync isGenerator done
  exact .ite (.after variableName_moves fun _ => rest) rest

omit regular in
theorem isModifier_moves (ends : List String) : Moves (isModifier ends) := by
  refine .after punctAfter_moves fun mark => ?_
  split
  · exact .pure fun _ => id
  · refine .get fun state => ?_
    split <;> exact .pure fun _ => id

omit regular in
theorem modifiers_moves (ends : List String) : Moves (modifiers ends) := by
  unfold modifiers
  extract_lets sameLine withAsync
  refine .after (atWord_moves _) fun isWord => .after (isModifier_moves _) fun isPart =>
    .after .lookAhead fun isSame => ?_
  have later : ∀ isAsync, Moves (withAsync isAsync) := by
    intro isAsync
    refine .after (eat_moves _) fun isGenerator => .after (atWord_moves _) fun isGet =>
      .after (atWord_moves _) fun isSet => .after (isModifier_moves _) fun isPart => ?_
    refine .ite (.after advance_moves fun _ => .after (.pure fun _ => id) fun _ => ?_)
      (.after (.pure fun _ => id) fun _ => ?_)
    all_goals exact .pure fun _ => id
  refine .ite (.after advance_moves fun _ => .after (.pure fun _ => id) later)
    (.after (.pure fun _ => id) later)

theorem shorthandValue_reads (name : String) (span : Span) :
    Reads (shorthandValue parse name span) Expr.nodes := by
  intro done
  refine .test (eat_moves _) ?_ (.gives (by simp))
  refine (regular.assignment true).then fun value => ?_
  refine .bind (.modify fun _ => ⟨rfl, rfl, rfl⟩) fun _ => ?_
  exact .after (spanFrom_moves _) fun span => .gives (by simp)

/-- A property is read with the calls in its key before those in its value. -/
theorem objectProperty_reads : Reads (objectProperty parse) Property.nodes := by
  intro done
  refine .after startOffset_moves fun start => .test (eat_moves _) ?_ ?_
  · refine (regular.assignment true).then fun value => ?_
    exact .after (spanFrom_moves _) fun span => .gives (by simp)
  · refine .after (modifiers_moves _) fun marks => .get fun state =>
      (propertyKey_reads regular).then fun key => .test (atPunct_moves _) ?_ ?_
    · refine (methodFunction_reads regular _ _).then fun method => ?_
      exact .after (spanFrom_moves _) fun span => .gives (by simp)
    · refine .ite .failure (.test (eat_moves _) ?_ ?_)
      · refine (regular.assignment true).then fun value => ?_
        exact .after (spanFrom_moves _) fun span => .gives (by simp)
      · split
        · refine (shorthandValue_reads regular _ _).then fun value => ?_
          exact .after (spanFrom_moves _) fun span => .gives (by simp)
        · exact .failure

/-- The properties of an object are read in order. -/
theorem objectLiteral_reads (start : Nat) : ReadsExpr (objectLiteral parse start) := by
  intro done
  refine (Keeps.loop (fun read => Behind done propertyNodes read.reverse)
    (fun read => ?_) []).weaken (by simp)
  refine .test (eat_moves _) ?_ ?_
  · exact .after (spanFrom_moves _) fun span => .ends (.givesExpr (by simp) rfl)
  · refine (objectProperty_reads regular).then fun next =>
      .test (eat_moves _) (.again (.gives (by simp))) ?_
    refine .after (expect_moves _) fun _ => .after (spanFrom_moves _) fun span => ?_
    exact .ends (.givesExpr (by simp) rfl)

/-- A member of a class is read with the calls in its key before those in its value. -/
theorem classMember_reads : Reads (classMember parse) partNodes := by
  intro done
  refine .after (atWord_moves _) fun isWord => .after (isModifier_moves _) fun isPart => ?_
  extract_lets rest
  have later : ∀ isStatic, Keeps (Below done) (rest isStatic)
      (Behind done partNodes) := by
    intro isStatic
    refine .after (atPunct_moves _) fun isBlock => .ite ?_ ?_
    · refine (Keeps.withSettings (block_reads regular done)).bind fun statements => ?_
      exact .gives (by simp)
    · refine .after (modifiers_moves _) fun marks => (propertyKey_reads regular).then fun key =>
        .test (atPunct_moves _) ?_ (.ite .failure ?_)
      · exact (methodFunction_reads regular _ _).then fun method => .gives (by simp)
      · refine .after (eat_moves _) fun isGiven => ?_
        extract_lets ended
        have last : ∀ value, Keeps (Behind (done ++ callStarts key.nodes) partNodes value)
            (ended value) (Behind done partNodes) :=
          fun value => .after semicolon_moves fun _ => .gives (by simp)
        refine .ite ?_ ?_
        · refine .bind (.withSettings (regular.assignment true _)) fun value => ?_
          refine (Keeps.pure fun _ stands => ?_).bind last
          simpa using stands.below
        · exact .given (by simp) last
  exact .ite (.after advance_moves fun _ => .after (.pure fun _ => id) later)
    (.after (.pure fun _ => id) later)

/-- The members of a class are read in order. -/
theorem classBody_reads : Reads (classBody parse) partNodes := by
  intro done
  refine .after (expect_moves _) fun _ => ?_
  refine (Keeps.loop (fun read => Behind done partNodes read)
    (fun read => ?_) []).weaken (by simp)
  refine .test (eat_moves _) (.ends (.gives rfl)) (.test (eat_moves _) (.again (.gives rfl)) ?_)
  exact (classMember_reads regular).then fun parts => .again (.gives (by simp))

/-- A class is read with the calls in what it extends before those in its members. -/
theorem classExpression_reads : ReadsExpr (classExpression parse) := by
  intro done
  refine .after startOffset_moves fun start => .after (expectWord_moves _) fun _ =>
    .after (atWord_moves _) fun isHeir => .after (atPunct_moves _) fun isBare => ?_
  extract_lets behindHeritage behindName
  have members : ∀ heritage, Keeps (Behind done partNodes heritage)
      (behindHeritage heritage) (Stands done) := fun heritage =>
    (classBody_reads regular).then fun parts =>
      .after (spanFrom_moves _) fun span => .givesExpr (by simp) rfl
  have named : ∀ skipped, Keeps (Below done) (behindName skipped) (Stands done) := by
    intro skipped
    refine .test (eatWord_moves _) ?_ ?_
    · refine regular.unary.then fun e => ?_
      exact .given (by simp) members
    · exact .given (by simp) members
  exact .ite (.after variableName_moves fun _ => named ()) (named ())

end Functions

end ClassFactory.Script
