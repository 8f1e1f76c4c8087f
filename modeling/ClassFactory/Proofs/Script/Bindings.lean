/-
Module: ClassFactory.Proofs.Script.Bindings
Purpose: A part of the grammar reads calls in order if, wherever it starts, those in the tree that
  it yields begin one after another, from there to the place where it ends. Names, keys and patterns
  are such parts if the parts they call are.
Main exports: Below, Stands, Reads, ReadsExpr, Grammar.Regular, propertyKey_reads,
  parseBinding_reads, parameterList_reads
-/
import ClassFactory.Proofs.Script.CallStarts
import ClassFactory.Proofs.Script.Parsing

namespace ClassFactory.Script

/-- Starts in order, all of them in front of a place. -/
structure Below (starts : List Nat) (place : Nat) : Prop where
  sorted : starts.Pairwise (· < ·)
  before : ∀ start ∈ starts, start < place

namespace Below

variable {starts : List Nat} {here place : Nat}

theorem nil : Below [] place := ⟨.nil, nofun⟩

instance : Upward (Below starts) :=
  ⟨fun further below => ⟨below.sorted, fun start isStart =>
    Nat.lt_of_lt_of_le (below.before start isStart) further⟩⟩

/-- One more start, at a place that all others are in front of. -/
theorem snoc (below : Below starts here) (further : here < place) :
    Below (starts ++ [here]) place := by
  constructor
  · rw [List.pairwise_append]
    exact ⟨below.sorted, List.pairwise_singleton _ _, fun start isStart other isOther =>
      List.mem_singleton.mp isOther ▸ below.before start isStart⟩
  · intro start isStart
    rcases List.mem_append.mp isStart with isEarlier | isHere
    · exact Nat.lt_trans (below.before start isEarlier) further
    · exact List.mem_singleton.mp isHere ▸ further

/-- Fewer starts are in order and in front of the place as well. -/
theorem sublist {fewer : List Nat} (below : Below starts place) (among : fewer.Sublist starts) :
    Below fewer place :=
  ⟨below.sorted.sublist among, fun start isStart => below.before start (among.subset isStart)⟩

end Below

/-- A place that a parse has reached from another one, in front of which all starts are. -/
structure Since (starts : List Nat) (here place : Nat) : Prop where
  below : Below starts here
  forward : here ≤ place

instance {starts : List Nat} {here : Nat} : Upward (Since starts here) :=
  ⟨fun further since => ⟨since.below, Nat.le_trans since.forward further⟩⟩

/-- A token begins where the calls read so far are past. -/
theorem tokenSpan_since (starts : List Nat) :
    Keeps (Below starts) tokenSpan fun span => Since starts span.start :=
  .getPlace fun _ _ below => .pure fun _ same => ⟨below, Nat.le_of_eq same.symm⟩

/-- Wherever the parse goes on to, the starts are in front of it. -/
theorem Since.later {starts : List Nat} {here place : Nat} (since : Since starts here place) :
    Below starts place :=
  Upward.later since.forward since.below

/-- What holds behind an expression: its calls follow those in front of it, and if it spells a
name, which may be called, so does its beginning. -/
structure Stands (done : List Nat) (e : Expr) (place : Nat) : Prop where
  below : Below (done ++ callStarts e.nodes) place
  named : e.qualifiedName?.isSome → Since done e.span.start place

instance {done : List Nat} {e : Expr} : Upward (Stands done e) :=
  ⟨fun further stands => ⟨Upward.later further stands.below, fun named =>
    Upward.later further (stands.named named)⟩⟩

/-- What holds behind a tree: its calls follow those in front of it. -/
@[simp]
abbrev Behind {α : Type} (done : List Nat) (nodes : α → List Node) (tree : α) : Nat → Prop :=
  Below (done ++ callStarts (nodes tree))

/-- The calls in what the parser yields follow those in front of it. -/
abbrev Reads {α : Type} (p : Parser α) (nodes : α → List Node) : Prop :=
  ∀ done, Keeps (Below done) p (Behind done nodes)

/-- The same for expressions, and for the beginning of a name. -/
abbrev ReadsExpr (p : Parser Expr) : Prop :=
  ∀ done, Keeps (Below done) p (Stands done)

/-- A grammar of which all parts read calls in order. -/
structure Grammar.Regular (parse : Grammar) : Prop where
  expression : ∀ allowIn, ReadsExpr (parse (.expression allowIn))
  assignment : ∀ allowIn, ReadsExpr (parse (.assignment allowIn))
  binary : ∀ allowIn precedence, ReadsExpr (parse (.binary allowIn precedence))
  unary : ReadsExpr (parse .unary)
  constructee : ReadsExpr (parse .constructee)
  binding : Reads (parse .binding) Binding.nodes
  statement : Reads (parse .statement) Stmt.nodes
  element : ∀ nested, ReadsExpr (parse (.element nested))

section Rules

variable {α β σ : Type} {done later : List Nat} {e : Expr} {p : Parser α} {f : α → Parser β}
  {R : α → Nat → Prop} {Q : β → Nat → Prop} {nodes : α → List Node}

/-- What is read first stands in front of what follows. -/
theorem Reads.then (reads : Reads p nodes)
    (rest : ∀ r, Keeps (Behind done nodes r) (f r) Q) : Keeps (Below done) (p >>= f) Q :=
  (reads done).bind rest

/-- A part that reads calls in order goes forward. -/
theorem Reads.moves (reads : Reads p nodes) : Moves p :=
  ((reads []).weaken fun _ _ => .nil).moves

/-- An expression is read as any tree is. -/
theorem ReadsExpr.reads {p : Parser Expr} (reads : ReadsExpr p) : Reads p Expr.nodes :=
  fun done => (reads done).imp fun _ _ stands => stands.below

/-- An expression that is read first stands in front of what follows. -/
theorem ReadsExpr.then {p : Parser Expr} {f : Expr → Parser β} (reads : ReadsExpr p)
    (rest : ∀ e, Keeps (Behind done Expr.nodes e) (f e) Q) : Keeps (Below done) (p >>= f) Q :=
  reads.reads.then rest

namespace Keeps

/-- A result with the calls read so far. -/
theorem gives {upTo : α → List Nat} {result : α} (same : later = upTo result) :
    Keeps (Below later) (pure result) fun result => Below (upTo result) :=
  .pure fun _ below => same ▸ below

/-- A part that is yielded with the calls read so far, for what follows it. -/
theorem given {upTo : α → List Nat} {part : α} (same : later = upTo part)
    (rest : ∀ part, Keeps (Below (upTo part)) (f part) Q) : Keeps (Below later) (pure part >>= f) Q :=
  Keeps.bind (gives same) rest

/-- Behind an expression of which only the calls matter from now on. -/
theorem standing (keeps : Keeps (Behind done Expr.nodes e) p R) : Keeps (Stands done e) p R :=
  keeps.weaken fun _ stands => stands.below

/-- A result that keeps some of the calls read so far. -/
theorem givesSome {upTo : α → List Nat} {result : α} (among : (upTo result).Sublist later) :
    Keeps (Below later) (pure result) fun result => Below (upTo result) :=
  .pure fun _ below => below.sublist among

/-- An expression that spells no name, with the calls read so far. -/
theorem givesExpr (same : later = done ++ callStarts e.nodes) (unnamed : e.qualifiedName? = none) :
    Keeps (Below later) (pure e) (Stands done) :=
  .pure fun _ below => ⟨same ▸ below, fun named => by rw [unnamed] at named; cases named⟩

/-- Another round of a loop. -/
theorem again {P : Nat → Prop} {invariant : σ → Nat → Prop} {next : σ}
    (keeps : Keeps P (pure next) invariant) :
    Keeps P (pure (.inl next)) (Sum.elim invariant Q) :=
  fun state _ after sound start ran => by
    cases ran
    exact keeps state next state sound start rfl

/-- The end of a loop. -/
theorem ends {P : Nat → Prop} {invariant : σ → Nat → Prop} {result : β}
    (keeps : Keeps P (pure result) Q) :
    Keeps P (pure (.inr result)) (Sum.elim invariant Q) :=
  fun state _ after sound start ran => by
    cases ran
    exact keeps state result state sound start rfl

end Keeps

end Rules

/-! ## Names, keys and patterns -/

section Bindings

variable {parse : Grammar} (regular : parse.Regular)

include regular

/-- A key is read with the calls in it, if it is computed. -/
theorem propertyKey_reads : Reads (propertyKey parse) Key.nodes := by
  intro done
  refine .get fun state => .after tokenSpan_moves fun span => ?_
  split
  case h_6 =>
    refine .after advance_moves fun _ => (regular.assignment true).then fun key => ?_
    refine .after (expect_moves _) fun _ => ?_
    split <;> exact .gives (by simp)
  case h_7 => exact .failure
  all_goals exact .after advance_moves fun _ => .gives (by simp [emptyExpr])

/-- A part of a pattern is read with the calls in its default. -/
theorem bindingElement_reads :
    Reads (bindingElement parse) fun parts => exprNodes parts := by
  intro done
  refine regular.binding.then fun binding => .test (eat_moves _) ?_ ?_
  · exact (regular.assignment true).then fun value => .gives (by simp)
  · exact .gives (by simp)

theorem arrayPattern_reads : Reads (arrayPattern parse) Binding.nodes := by
  intro done
  refine (Keeps.loop (fun parts => Behind done exprNodes parts)
    (fun parts => ?_) []).weaken (by simp)
  refine .test (eat_moves _) (.ends (.gives rfl)) (.test (eat_moves _) (.again (.gives rfl)) ?_)
  refine .test (eat_moves _) ?_ ?_
  · refine regular.binding.then fun rest => .after (expect_moves _) fun _ => ?_
    exact .ends (.gives (by simp))
  · refine (bindingElement_reads regular).then fun element => .test (eat_moves _) ?_ ?_
    · exact .again (.gives (by simp))
    · exact .after (expect_moves _) fun _ => .ends (.gives (by simp))

/-- A member of a pattern is read with the calls in its key, if that is computed, before those in
its value. -/
theorem patternMember_reads :
    Reads (patternMember parse) fun parts => exprNodes parts := by
  intro done
  refine .get fun state => (propertyKey_reads regular).then fun key => ?_
  refine .test (eat_moves _) ?_ (.ite (.test (eat_moves _) ?_ ?_) .failure)
  · refine (bindingElement_reads regular).then fun element => .gives ?_
    cases key <;> simp
  · exact (regular.assignment true).then fun value => .givesSome (by simp)
  · exact .givesSome (by simp)

theorem objectPattern_reads : Reads (objectPattern parse) Binding.nodes := by
  intro done
  refine (Keeps.loop (fun parts => Behind done exprNodes parts)
    (fun parts => ?_) []).weaken (by simp)
  refine .test (eat_moves _) (.ends (.gives rfl)) (.test (eat_moves _) ?_ ?_)
  · refine regular.binding.then fun rest => .after (expect_moves _) fun _ => ?_
    exact .ends (.gives (by simp))
  · refine (patternMember_reads regular).then fun inside => .test (eat_moves _) ?_ ?_
    · exact .again (.gives (by simp))
    · exact .after (expect_moves _) fun _ => .ends (.gives (by simp))

/-- A binding is read with the calls in its pattern. -/
theorem parseBinding_reads : Reads (parseBinding parse) Binding.nodes := by
  intro done
  refine .test (eat_moves _) (arrayPattern_reads regular done) ?_
  refine .test (eat_moves _) (objectPattern_reads regular done) ?_
  exact .after variableName_moves fun _ => .gives (by simp)

theorem parameter_reads : Reads (parameter parse) Parameter.nodes := by
  intro done
  refine regular.binding.then fun binding => .test (eat_moves _) ?_ (.gives (by simp))
  exact (regular.assignment true).then fun value => .gives (by simp)

/-- Parameters are read with the calls in their patterns and defaults, in order. -/
theorem parameterList_reads : Reads (parameterList parse) parameterNodes := by
  intro done
  refine .after (expect_moves _) fun _ => ?_
  refine (Keeps.loop (fun params => Behind done parameterNodes params)
    (fun params => ?_) []).weaken (by simp)
  refine .test (eat_moves _) (.ends (.gives rfl)) (.test (eat_moves _) ?_ ?_)
  · refine regular.binding.then fun binding => .after (expect_moves _) fun _ => ?_
    exact .ends (.gives (by simp))
  · refine (parameter_reads regular).then fun next => .test (eat_moves _) ?_ ?_
    · exact .again (.gives (by simp))
    · exact .after (expect_moves _) fun _ => .ends (.gives (by simp))

end Bindings

end ClassFactory.Script
