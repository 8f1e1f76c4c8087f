/-
Module: ClassFactory.Proofs.Script.Expressions
Purpose: Expressions read the calls in them in order. The one step at which something is called is
  a link of a chain: the call begins where its callee begins, in front of the arguments, and a
  callee that spells a name has no call inside.
Main exports: link_keeps, primary_reads, leftHandSide_reads, unaryExpression_reads,
  binaryExpression_reads, assignmentExpression_reads, commaExpression_reads
-/
import ClassFactory.Proofs.Script.Functions
import ClassFactory.Script.Expressions

namespace ClassFactory.Script

/-- The arguments that are neither spread nor left empty are some of all. -/
theorem callStarts_values (args : List Item) :
    (callStarts ((args.filterMap fun item => item.value?.map Part.expr).flatMap Part.nodes)).Sublist
      (callStarts (args.flatMap Item.nodes)) := by
  induction args with
  | nil => exact .slnil
  | cons item rest ih =>
      rw [List.flatMap_cons, callStarts_append]
      cases item with
      | value e => simpa [Item.value?] using ih
      | spread e span => exact ih.trans (List.sublist_append_right _ _)
      | hole => exact ih

section Expressions

variable {parse : Grammar} (regular : parse.Regular)

/-- A place in a template from which its text goes on, in front of which all starts are. -/
theorem templateParts_keeps (regular : parse.Regular) (done : List Nat) (text : Cursor) :
    Keeps (fun n => Below done n ∧ n ≤ text.offset) (templateParts parse text)
      (Behind done exprNodes) := by
  refine (Keeps.loop (fun scan n => Below (done ++ callStarts (exprNodes scan.1.reverse)) n ∧
    n ≤ scan.2.offset) (fun scan => ?_) ([], text)).weaken (by simp)
  refine .getPlace fun state _ here => ?_
  split
  next close scanned =>
    have forward := Nat.le_trans here.2 (scanTemplateChunk_offset _ _ scanned)
    exact .resumed forward here.1 (.ends (.gives rfl))
  next embedded scanned =>
    have forward := Nat.le_trans here.2 (scanTemplateChunk_offset _ _ scanned)
    refine .resumed forward here.1 ((regular.expression true).then fun part =>
      .test (atPunct_moves _) (.getPlace fun behind sound below => .pure ?_) .failure)
    rintro n rfl
    exact ⟨by simpa using below, sound.forward⟩
  next => exact .failure

include regular

theorem templateLiteral_reads : ReadsExpr (templateLiteral parse) := by
  intro done
  refine .after startOffset_moves fun start => .getPlace fun state sound below => ?_
  refine (templateParts_keeps regular done state.after).weaken ?_ |>.bind fun parts => ?_
  · rintro n rfl
    exact ⟨below, sound.forward⟩
  · exact .after (spanFrom_moves _) fun span => .givesExpr (by simp) rfl

/-- The arguments of a call follow the parenthesis in front of them. -/
theorem arguments_keeps (done : List Nat) :
    Keeps (fun n => ∀ m, n < m → Below done m) (arguments parse)
      (Behind done itemNodes) := by
  refine (expect_past _).bind fun _ => ?_
  refine (Keeps.loop (fun read => Behind done itemNodes read.reverse)
    (fun read => ?_) []).weaken (by simp)
  refine .test (eat_moves _) (.ends (.gives rfl)) (.after startOffset_moves fun start =>
    .after (eat_moves _) fun isSpread => ?_)
  extract_lets behind
  have later : ∀ next, Keeps
      (Behind (done ++ callStarts (itemNodes read.reverse)) Item.nodes next) (behind next)
      (Sum.elim (fun read => Behind done itemNodes read.reverse) (Behind done itemNodes)) :=
    fun next =>
    .test (eat_moves _) (.again (.gives (by simp)))
      (.after (expect_moves _) fun _ => .ends (.gives (by simp)))
  refine .ite ?_ ?_
  · refine (regular.assignment true).then fun e => .after (spanFrom_moves _) fun span => ?_
    exact .given (by simp) later
  · refine (regular.assignment true).then fun e => ?_
    exact .given (by simp) later

/-- Arguments are read with the calls in them, in order. -/
theorem arguments_reads : Reads (arguments parse) itemNodes :=
  fun done => (arguments_keeps regular done).weaken fun _ below _ further =>
    Upward.later (Nat.le_of_lt further) below

theorem arrayLiteral_reads (start : Nat) : ReadsExpr (arrayLiteral parse start) := by
  intro done
  refine (Keeps.loop (fun read => Behind done itemNodes read.reverse)
    (fun read => ?_) []).weaken (by simp)
  refine .test (eat_moves _)
    (.after (spanFrom_moves _) fun span => .ends (.givesExpr (by simp) rfl)) ?_
  refine .test (eat_moves _) (.again (.gives (by simp))) (.after startOffset_moves fun place =>
    .after (eat_moves _) fun isSpread => ?_)
  extract_lets behind
  have later : ∀ next, Keeps
      (Behind (done ++ callStarts (itemNodes read.reverse)) Item.nodes next) (behind next)
      (Sum.elim (fun read => Behind done itemNodes read.reverse) (Stands done)) := fun next =>
    .test (eat_moves _) (.again (.gives (by simp))) (.after (expect_moves _) fun _ =>
      .after (spanFrom_moves _) fun span => .ends (.givesExpr (by simp) rfl))
  refine .ite ?_ ?_
  · refine (regular.assignment true).then fun e => .after (spanFrom_moves _) fun span => ?_
    exact .given (by simp) later
  · refine (regular.assignment true).then fun e => ?_
    exact .given (by simp) later

omit regular in
theorem regexLiteral_reads : ReadsExpr regexLiteral := by
  intro done
  refine .after startOffset_moves fun start => .getPlace fun state _ below => ?_
  split
  next close scanned =>
    have forward : state.place ≤ close.offset :=
      Nat.le_trans (Cursor.offset_skip ..) (scanRegex_offset _ scanned)
    exact .resumed forward below
      (.after (spanFrom_moves _) fun span => .givesExpr (by simp) rfl)
  next => exact .failure

/-- An import that is an expression is read with the calls in what it imports. -/
theorem importExpression_reads : ReadsExpr (importExpression parse) := by
  intro done
  refine .after startOffset_moves fun start => .after (expectWord_moves _) fun _ =>
    .test (eat_moves _) (.after anyName_moves fun _ => .after (spanFrom_moves _) fun span => ?_) ?_
  · exact .givesExpr (by simp [emptyExpr]) rfl
  · refine (arguments_reads regular).then fun args => .after (spanFrom_moves _) fun span => ?_
    refine .weaken (fun _ below => below.sublist ?_) (.givesExpr rfl rfl)
    simpa using callStarts_values args

theorem hiddenMembership_reads : ReadsExpr (hiddenMembership parse) := by
  intro done
  refine .after startOffset_moves fun start => .after advance_moves fun _ =>
    .after (expectWord_moves _) fun _ => (regular.binary true 9).then fun owner => ?_
  exact .after (spanFrom_moves _) fun span => .givesExpr (by simp) rfl

/-- A word that stands for an expression is read with what belongs to it. -/
theorem wordExpression_reads (word : String) (escaped : Bool) :
    ReadsExpr (wordExpression parse word escaped) := by
  intro done
  refine (tokenSpan_since done).bind fun span => .after wordAfter_moves fun next => .ite ?_ ?_
  · exact .after advance_moves fun _ =>
      (functionExpression_reads regular _ _ done).weaken fun _ since => since.later
  refine .get fun state => .ite ?_ ?_
  · exact .after advance_moves fun _ => .pure fun _ since =>
      ⟨by simpa using since.later, fun _ => since⟩
  refine .weaken (fun _ since => since.later) (.ite .failure ?_)
  split
  · exact .after advance_moves fun _ => .givesExpr (by simp) rfl
  · exact .after advance_moves fun _ => .givesExpr (by simp) rfl
  · exact .after advance_moves fun _ => .givesExpr (by simp) rfl
  · exact .after advance_moves fun _ => .givesExpr (by simp) rfl
  · exact .after advance_moves fun _ => .givesExpr (by simp [emptyExpr]) rfl
  · exact functionExpression_reads regular _ _ done
  · exact classExpression_reads regular done
  · exact importExpression_reads regular done
  · exact .failure

/-- Whatever an expression may begin with is read with its calls. -/
theorem primary_reads : ReadsExpr (primary parse) := by
  intro done
  refine (tokenSpan_since done).bind fun span => .get fun state => ?_
  split
  case h_7 =>
    -- the parenthesis is where the name inside, if there is one, begins
    have framed : Keeps (fun n => Below done n ∧ Since done span.start n)
        (parse (.expression true)) _ := (regular.expression true done).frame
    refine .after advance_moves fun _ =>
      (framed.weaken fun _ since => ⟨since.later, since⟩).bind fun inner => ?_
    refine .after (expect_moves _) fun _ => ?_
    refine (spanFrom_keeps _).bind fun place => .pure fun n reached => ?_
    obtain ⟨same, stands, since⟩ := reached
    exact ⟨by simpa using stands.below, fun _ => same ▸ since⟩
  all_goals refine .weaken (fun _ since => since.later) ?_
  · exact wordExpression_reads regular _ _ done
  · exact .after advance_moves fun _ => .givesExpr (by simp) rfl
  · exact .after advance_moves fun _ => .givesExpr (by simp) rfl
  · exact .after advance_moves fun _ => .givesExpr (by simp [emptyExpr]) rfl
  · exact templateLiteral_reads regular done
  · exact hiddenMembership_reads regular done
  · exact .after advance_moves fun _ => arrayLiteral_reads regular _ done
  · exact .after advance_moves fun _ => objectLiteral_reads regular _ done
  · exact regexLiteral_reads done
  · exact regexLiteral_reads done
  · exact regular.element false done
  · exact .failure

/-! ## Members and calls -/

omit regular in
/-- A member of what spells a name spells one that begins there. -/
theorem memberAfter_keeps {done : List Nat} (owner : Expr) :
    Keeps (Stands done owner) (memberAfter owner) (Stands done) := by
  refine .get fun state => ?_
  split
  · refine .after advance_moves fun _ => .after (spanFrom_moves _) fun span => ?_
    exact .standing (.givesExpr (by simp) rfl)
  · refine .after anyName_moves fun property => ?_
    refine (spanFrom_keeps _).bind fun span => .pure fun n reached => ?_
    obtain ⟨same, stands⟩ := reached
    refine ⟨by simpa using stands.below, fun named => ?_⟩
    rw [Expr.qualifiedName?, Option.isSome_map] at named
    exact same ▸ stands.named named

/-- A member that is computed is read with the calls in its key, behind those of its owner. -/
theorem indexAfter_keeps {done : List Nat} (owner : Expr) :
    Keeps (Stands done owner) (indexAfter parse owner) (Stands done) := by
  refine .standing ((regular.expression true).then fun key => ?_)
  exact .after (expect_moves _) fun _ => .after (spanFrom_moves _) fun span =>
    .givesExpr (by simp) rfl

/-- A tagged template is read with the calls in it, behind those of its tag. -/
theorem taggedTemplate_keeps {done : List Nat} (tag : Expr) :
    Keeps (Stands done tag) (taggedTemplate parse tag) (Stands done) := by
  refine .standing ((templateLiteral_reads regular).then fun text => ?_)
  exact .after (spanFrom_moves _) fun span => .givesExpr (by simp) rfl

/-- Where a call begins: in front of its arguments at its callee if that spells a name, and
otherwise at no place that matters. -/
def calledFrom (callee : Expr) : List Nat :=
  if callee.qualifiedName?.isSome then [callee.span.start] else callStarts callee.nodes

omit regular in
/-- A call begins behind all calls in front of it, whether its callee spells a name or is an
expression. -/
theorem Stands.calledFrom {done : List Nat} {callee : Expr} {place further : Nat}
    (stands : Stands done callee place) (behind : place < further) :
    Below (done ++ calledFrom callee) further := by
  unfold Script.calledFrom
  split
  next named =>
    have since := stands.named named
    exact since.below.snoc (Nat.lt_of_le_of_lt since.forward behind)
  next => exact Upward.later (Nat.le_of_lt behind) stands.below

omit regular in
/-- A call starts where its callee does, in front of its arguments. -/
theorem callStarts_call (callee : Expr) (args : List Item) {span : Span}
    (same : span.start = callee.span.start) :
    callStarts (Expr.call callee args span).nodes =
      calledFrom callee ++ callStarts (itemNodes args) := by
  rw [Expr.nodes, callStarts_cons, callStarts_append, calledFrom, Node.callStart?, same]
  split
  next named => rw [callStarts_of_qualified callee named]; rfl
  next => rfl

/-- A call stands where its callee stood. -/
theorem call_keeps {β : Type} {done : List Nat} {Q : β → Nat → Prop} (callee : Expr)
    (f : Expr → Parser β) (rest : ∀ longer, Keeps (Stands done longer) (f longer) Q) :
    Keeps (Stands done callee) (arguments parse >>= fun args =>
      spanFrom callee.span.start >>= fun span => f (.call callee args span)) Q := by
  have begun : Keeps (Stands done callee) (arguments parse) _ :=
    (arguments_keeps regular (done ++ calledFrom callee)).weaken
      fun _ stands _ behind => stands.calledFrom behind
  refine begun.bind fun args => (spanFrom_keeps _).bind fun span => .weaken ?_ (rest _)
  rintro n ⟨same, below⟩
  exact ⟨by rw [callStarts_call callee args same, ← List.append_assoc]; exact below, nofun⟩

/-- A link makes the chain longer, which then stands where it stood before. -/
theorem link_keeps {done : List Nat} (e : Expr) :
    Keeps (Stands done e) (link parse e) fun longer =>
      longer.elim (Stands done e) fun longer => Stands done longer.1 := by
  refine .test (eat_moves _) ?_ (.test (eat_moves _) ?_ (.test (atPunct_moves _) ?_ ?_))
  · exact (memberAfter_keeps e).bind fun longer => .pure fun _ => id
  · exact (indexAfter_keeps regular e).bind fun longer => .pure fun _ => id
  · exact call_keeps regular e (fun longer => pure (some (longer, false)))
      fun longer => .pure fun _ => id
  · refine .test (eat_moves _) (.test (eat_moves _) ?_ (.test (atPunct_moves _) ?_ ?_)) ?_
    · exact (indexAfter_keeps regular e).bind fun longer => .pure fun _ => id
    · exact call_keeps regular e (fun longer => pure (some (longer, true)))
        fun longer => .pure fun _ => id
    · exact (memberAfter_keeps e).bind fun longer => .pure fun _ => id
    · refine .get fun state => ?_
      split
      · exact (taggedTemplate_keeps regular e).bind fun longer => .pure fun _ => id
      · exact .pure fun _ => id

/-- The links of what is constructed are read one after another. -/
theorem constructeeLinks_keeps {done : List Nat} (e : Expr) :
    Keeps (Stands done e) (constructeeLinks parse e) (Stands done) := by
  refine Keeps.loop (Stands done) (fun e => ?_) e
  refine .test (eat_moves _) ?_ (.test (eat_moves _) ?_ (.get fun state => ?_))
  · exact (memberAfter_keeps e).bind fun longer => .pure fun _ => id
  · exact (indexAfter_keeps regular e).bind fun longer => .pure fun _ => id
  · split
    · exact (taggedTemplate_keeps regular e).bind fun longer => .pure fun _ => id
    · exact .pure fun _ => id

/-- A construction is read with the calls in what it constructs before those in its arguments. -/
theorem newExpression_reads : ReadsExpr (newExpression parse) := by
  intro done
  refine .after startOffset_moves fun start => .after (expectWord_moves _) fun _ =>
    .test (eat_moves _) ?_ (regular.constructee.then fun callee => ?_)
  · exact .after (expectWord_moves _) fun _ => .after (spanFrom_moves _) fun span =>
      .givesExpr (by simp [emptyExpr]) rfl
  · refine .after (atPunct_moves _) fun isCalled => ?_
    extract_lets behind
    have later : ∀ args, Keeps (Behind (done ++ callStarts callee.nodes) itemNodes args)
        (behind args) (Stands done) := fun args =>
      .after (spanFrom_moves _) fun span => .givesExpr (by simp) rfl
    refine .ite ((arguments_reads regular).then later) ?_
    exact .given (by simp) later

theorem constructeeExpression_reads : ReadsExpr (constructeeExpression parse) := by
  intro done
  refine .after (atWord_moves _) fun isNew => ?_
  exact .ite ((newExpression_reads regular done).bind (constructeeLinks_keeps regular))
    ((primary_reads regular done).bind (constructeeLinks_keeps regular))

/-- Calls, members and templates are read behind what they belong to. -/
theorem leftHandSide_reads : ReadsExpr (leftHandSide parse) := by
  intro done
  refine .after startOffset_moves fun start => .after (atWord_moves _) fun isNew => ?_
  extract_lets behind
  have chain : ∀ first, Keeps (Stands done first) (behind first) (Stands done) := by
    intro first
    refine Keeps.loop (fun chain => Stands done chain.1) (fun chain => ?_) (first, false)
    refine (link_keeps regular chain.1).bind fun longer => ?_
    cases longer with
    | some longer => exact .pure fun _ => id
    | none =>
        show Keeps (Stands done chain.1) _ _
        refine .ite (.after (spanFrom_moves _) fun span => .ends ?_) (.ends (.pure fun _ => id))
        exact .standing (.givesExpr (by simp) rfl)
  exact .ite ((newExpression_reads regular done).bind chain)
    ((primary_reads regular done).bind chain)

/-! ## Operators -/

omit regular in
theorem updated_keeps {done : List Nat} (target : Expr) (start : Nat) :
    Keeps (Stands done target) (updated target start) (Stands done) := by
  unfold updated
  split
  next simple isSimple =>
    refine .standing (.after (spanFrom_moves _) fun span => ?_)
    exact .givesExpr (by simp [asSimpleTarget?_callStarts target simple isSimple]) rfl
  next => exact .failure

theorem unaryExpression_reads : ReadsExpr (unaryExpression parse) := by
  intro done
  refine .after startOffset_moves fun start => .get fun state => ?_
  split
  · refine .after advance_moves fun _ => regular.unary.then fun operand =>
      .test (atPunct_moves _) .failure ?_
    exact .after (spanFrom_moves _) fun span => .givesExpr (by simp) rfl
  · refine .test (atAnyPunct_moves _) ?_ (.after (atWord_moves _) fun isAwait => .ite ?_ ?_)
    · exact .after advance_moves fun _ => (regular.unary done).bind fun e => updated_keeps e start
    · refine .after advance_moves fun _ => regular.unary.then fun operand => ?_
      exact .after (spanFrom_moves _) fun span => .givesExpr (by simp) rfl
    · refine (leftHandSide_reads regular done).bind fun e => .get fun state => ?_
      refine .after (atAnyPunct_moves _) fun isUpdate => .ite ?_ (.pure fun _ => id)
      exact .after advance_moves fun _ => updated_keeps e start

/-- Operands are read from left to right. -/
theorem binaryExpression_reads (allowIn : Bool) (least : Nat) :
    ReadsExpr (binaryExpression parse allowIn least) := by
  intro done
  refine (regular.unary done).bind fun first => ?_
  refine Keeps.loop (Stands done) (fun left => .get fun state => ?_) first
  split
  · refine .ite (.ends (.pure fun _ => id)) (.after advance_moves fun _ => ?_)
    refine .standing ((regular.binary _ _).then fun right => ?_)
    refine .after (spanFrom_moves _) fun span => ?_
    split
    · exact .again (.givesExpr (by simp) rfl)
    · exact .again (.givesExpr (by simp) rfl)
  · exact .ends (.pure fun _ => id)

/-- The test of a conditional is read before its branches. -/
theorem conditionalExpression_reads (allowIn : Bool) :
    ReadsExpr (conditionalExpression parse allowIn) := by
  intro done
  refine (regular.binary allowIn 0 done).bind fun test =>
    .test (eat_moves _) ?_ (.pure fun _ => id)
  refine .standing ((regular.assignment true).then fun consequent => ?_)
  refine .after (expect_moves _) fun _ => (regular.assignment allowIn).then fun alternate => ?_
  exact .after (spanFrom_moves _) fun span => .givesExpr (by simp) rfl

/-! ## Arrow functions and assignments -/

/-- The parameters of an arrow function are a list or one name. -/
theorem arrowParameters_reads : Reads (arrowParameters parse) parameterNodes := by
  intro done
  refine .after (atPunct_moves _) fun isList => ?_
  extract_lets behind
  have later : ∀ params, Keeps (Behind done parameterNodes params) (behind params)
      (Behind done parameterNodes) := fun params =>
    .get fun state => .ite .failure (.after (expect_moves _) fun _ => .gives rfl)
  refine .ite ((parameterList_reads regular).then later) (.after variableName_moves fun name => ?_)
  exact .given (by simp) later

/-- The head of an arrow function is tried both ways: as asynchronous, and without. -/
theorem arrowHead_reads : Reads (arrowHead parse) fun head => parameterNodes head.2 := by
  intro done
  unfold arrowHead
  extract_lets asynchronous
  have reads : Keeps (Below done) asynchronous (Behind done parameterNodes) :=
    .after (expectWord_moves _) fun _ => .get fun state =>
      .ite .failure (.withSettings (arrowParameters_reads regular done))
  refine reads.attempt.bind fun attempted => ?_
  cases attempted with
  | some params => exact .gives rfl
  | none => exact (arrowParameters_reads regular).then fun params => .gives rfl

/-- The body of an arrow function is a block or an expression. -/
theorem arrowBody_reads (allowIn : Bool) :
    Reads (arrowBody parse allowIn) fun body => stmtNodes body.2 := by
  intro done
  refine .test (atPunct_moves _) ?_ ?_
  · exact (functionBody_reads regular).then fun body => .gives rfl
  · exact (regular.assignment allowIn).then fun e => .gives (by simp)

theorem yieldExpression_reads (allowIn : Bool) : ReadsExpr (yieldExpression parse allowIn) := by
  intro done
  refine .after startOffset_moves fun start => .after (expectWord_moves _) fun _ =>
    .get fun state => .ite ?_ (.after (eat_moves _) fun isAll => ?_)
  · exact .after (spanFrom_moves _) fun span => .givesExpr (by simp [emptyExpr]) rfl
  · refine (regular.assignment allowIn).then fun value => ?_
    exact .after (spanFrom_moves _) fun span => .givesExpr (by simp) rfl

/-- The value of an assignment follows its target, whatever form that had as an expression. -/
theorem assigned_reads {done : List Nat} {left target : Expr} (allowIn : Bool) (start : Nat)
    (same : callStarts target.nodes = callStarts left.nodes) :
    Keeps (Stands done left) (parse (.assignment allowIn) >>= fun value =>
      spanFrom start >>= fun span => pure (.assign target value span)) (Stands done) := by
  refine .standing ((regular.assignment allowIn).then fun value => ?_)
  exact .after (spanFrom_moves _) fun span => .givesExpr (by simp [same]) rfl

/-- The head of an arrow function is tried first, and nothing that it read stays if there is
none. -/
theorem assignmentExpression_reads (allowIn : Bool) :
    ReadsExpr (assignmentExpression parse allowIn) := by
  intro done
  refine .after startOffset_moves fun start => .get fun before =>
    .after (atWord_moves _) fun isYield => .ite (yieldExpression_reads regular allowIn done) ?_
  refine (arrowHead_reads regular done).attempt.bind fun attempted => ?_
  cases attempted with
  | some head =>
      refine .bind (.withSettings (arrowBody_reads regular allowIn _)) fun body => ?_
      exact .after (spanFrom_moves _) fun span => .givesExpr (by simp) rfl
  | none =>
      refine (conditionalExpression_reads regular allowIn done).bind fun left => ?_
      refine .test (eat_moves _) ?_ (.test (atAnyPunct_moves _) ?_ (.pure fun _ => id))
      · split
        next target isTarget =>
          refine .bind (.modify fun _ => ⟨rfl, rfl, rfl⟩) fun _ => ?_
          exact assigned_reads regular allowIn start (asTarget?_callStarts left target isTarget)
        next => exact .failure
      · split
        next target isTarget =>
          refine .after advance_moves fun _ => ?_
          exact assigned_reads regular allowIn start
            (asSimpleTarget?_callStarts left target isTarget)
        next => exact .failure

/-- What holds behind expressions separated by commas, the last first: a single one stands for
itself. -/
structure Row (done : List Nat) (read : List Expr) (place : Nat) : Prop where
  nonempty : read ≠ []
  below : Below (done ++ callStarts (exprNodes read.reverse)) place
  single : ∀ e, read = [e] → Stands done e place

instance {done : List Nat} {read : List Expr} : Upward (Row done read) :=
  ⟨fun further row => ⟨row.nonempty, Upward.later further row.below, fun e single =>
    Upward.later further (row.single e single)⟩⟩

/-- Expressions with commas between them are read in order. -/
theorem commaExpression_reads (allowIn : Bool) : ReadsExpr (commaExpression parse allowIn) := by
  intro done
  refine (regular.assignment allowIn done).bind fun first => ?_
  have start : ∀ n, Stands done first n → Row done [first] n := fun n stands =>
    ⟨List.cons_ne_nil _ _, by simpa using stands.below, fun e same => by cases same; exact stands⟩
  refine .weaken start (Keeps.loop (Row done) (fun read => .test (eat_moves _) ?_ ?_) [first])
  · have framed : Keeps (fun n => Below (done ++ callStarts (exprNodes read.reverse)) n ∧
        Row done read n) (parse (.assignment allowIn)) _ := (regular.assignment allowIn _).frame
    refine (framed.weaken fun n row => ⟨row.below, row⟩).bind fun next => .again (.pure ?_)
    rintro n ⟨stands, row⟩
    exact ⟨List.cons_ne_nil _ _, by simpa using stands.below, fun e same =>
      absurd (List.cons.inj same).2 row.nonempty⟩
  · split
    next e => exact .ends (.pure fun _ row => row.single e rfl)
    next =>
      refine .weaken (fun _ row => row.below) (.after (spanFrom_moves _) fun span => ?_)
      exact .ends (.givesExpr (by simp [-List.map_reverse]) rfl)

end Expressions

end ClassFactory.Script
