/-
Module: ClassFactory.Proofs.Usage.Visits
Purpose: The walk over a program as a list of visits, in the order in which they are made: functions
  are entered and left, members, calls and elements are looked at, and variables are bound. What
  stands in the body of a chosen function is marked. The walk does what its visits do one after
  another, so what it does at a place is told by the visit there and the state that the visits
  before it lead to.
Main exports: Visit, Stop, Script.Expr.route, stmtsRoute, Usage.follow, checkExpr_follows,
  checkStmts_follows, Visit.apply_appends, checkProgram_follows
-/
import ClassFactory.Proofs.Usage.Steps
import ClassFactory.Proofs.Usage.Values

namespace ClassFactory

open Script (Expr Item Property Key Tag Binding Parameter Declarator Attribute Child Stmt Part
  Program)

/-! ## Visits -/

/-- A step of the walk over a program. -/
inductive Visit where
  | enter (params : List Parameter) (span : Span)
  | leave
  | member (owner : Expr) (property : String) (propertySpan : Span)
  | call (callee : Expr) (args : List Item) (span : Span)
  | tagged (tag : Tag) (attributes : List Attribute) (children : List Child) (span : Span)
  /-- Binds a variable of the declaration that stands in the span, `alone` or among others. -/
  | declare (declarator : Declarator) (alone : Bool) (span : Span)

/-- Reads a callee that is a member, in parentheses or not. -/
def Usage.readCallee (context : UsageContext) (usage : Usage) (callee : Expr) : Usage :=
  match callee.unparen with
  | .member owner property propertySpan _ => usage.checkMember context owner property propertySpan
  | _ => usage

/-- Binds a declared variable, unless a pattern is declared. Documentation applies to a declaration of
a single variable. -/
def Usage.declareOne (context : UsageContext) (usage : Usage) (declarator : Declarator)
    (alone : Bool) (span : Span) : Usage :=
  let documented :=
    if alone then (context.unit.docAt span.start).typeTag.map TypeTag.type else none
  match declarator.binding.name? with
  | some name => usage.declare name (usage.declaredType context documented name declarator.init?)
  | none => usage

/-- What a visit does. A callee is read by the visit of the call, unless the call is checked as one
of a method or a static. -/
def Visit.apply (context : UsageContext) (usage : Usage) : Visit → Usage
  | .enter params span => usage.enter context params span
  | .leave => usage.leave
  | .member owner property propertySpan => usage.checkMember context owner property propertySpan
  | .call callee args span =>
    match usage.callKind context callee with
    | .construction => (usage.checkConstruction context args span).readCallee context callee
    | .plain => usage.readCallee context callee
    | kind => usage.checkCall context kind args
  | .tagged tag attributes children span => usage.checkTagged context tag attributes children span
  | .declare declarator alone span => usage.declareOne context declarator alone span

/-- A visit, and whether it is made in the body of a chosen function. -/
structure Stop where
  visit : Visit
  inside : Bool

/-- A visit outside of chosen functions. -/
def Stop.outside (visit : Visit) : Stop := { visit := visit, inside := false }

/-- No function is chosen. -/
def noneChosen : Expr → Bool := fun _ => false

/-- The visits of a body, which is that of a chosen function or not. -/
def bodyRoute (chosen : Bool) (route : List Stop) : List Stop :=
  if chosen then route.map fun stop => { stop with inside := true } else route

/-- Whether an expression is a member, in parentheses or not. -/
def Script.Expr.isMember (e : Expr) : Bool :=
  match e.unparen with
  | .member _ _ _ _ => true
  | _ => false

/-- The visits of a callee or a target without the read of the member that it is. -/
def beyondRead (e : Expr) (route : List Stop) : List Stop :=
  if e.isMember then route.tail else route

mutual
/-- The visits of an expression and its parts. -/
def Script.Expr.route (chosen : Expr → Bool) : Expr → List Stop
  | .template parts _ => exprsRoute chosen parts
  | .array items _ => itemsRoute chosen items
  | .object properties _ => propertiesRoute chosen properties
  | .function params body span =>
    .outside (.enter params span) ::
      (parametersRoute chosen params ++
        bodyRoute (chosen (.function params body span)) (stmtsRoute chosen body) ++
        [.outside .leave])
  | .arrow params concise body span =>
    parametersRoute chosen params ++
      bodyRoute (chosen (.arrow params concise body span)) (stmtsRoute chosen body)
  | .member owner property propertySpan _ =>
    .outside (.member owner property propertySpan) :: owner.route chosen
  | .call callee args span =>
    .outside (.call callee args span) ::
      (beyondRead callee (callee.route chosen) ++ itemsRoute chosen args)
  | .construct callee args _ => callee.route chosen ++ itemsRoute chosen args
  | .unary _ operand _ => operand.route chosen
  | .binary _ left right _ => left.route chosen ++ right.route chosen
  | .conditional test consequent alternate _ =>
    test.route chosen ++ consequent.route chosen ++ alternate.route chosen
  | .assign (.member owner _ _ _) value _ => owner.route chosen ++ value.route chosen
  | .assign target value _ => target.route chosen ++ value.route chosen
  | .paren inner _ => inner.route chosen
  | .element tag attributes children _ span =>
    .outside (.tagged tag attributes children span) ::
      (attributesRoute chosen attributes ++ childrenRoute chosen children)
  | .fragment children _ => childrenRoute chosen children
  | .other _ parts _ => partsRoute chosen parts
  | _ => []
termination_by structural e => e

/-- The visits of expressions in order. -/
def exprsRoute (chosen : Expr → Bool) : List Expr → List Stop
  | [] => []
  | e :: rest => e.route chosen ++ exprsRoute chosen rest
termination_by structural es => es

/-- The visits of an item. -/
def Script.Item.route (chosen : Expr → Bool) : Item → List Stop
  | .value e => e.route chosen
  | .spread e _ => e.route chosen
  | .hole => []
termination_by structural item => item

/-- The visits of items in order. -/
def itemsRoute (chosen : Expr → Bool) : List Item → List Stop
  | [] => []
  | item :: rest => item.route chosen ++ itemsRoute chosen rest
termination_by structural items => items

/-- The visits of a key. -/
def Script.Key.route (chosen : Expr → Bool) : Key → List Stop
  | .named _ _ => []
  | .computed e => e.route chosen
termination_by structural key => key

/-- The visits of a property. -/
def Script.Property.route (chosen : Expr → Bool) : Property → List Stop
  | .entry key value _ => key.route chosen ++ value.route chosen
  | .spread e _ => e.route chosen
termination_by structural property => property

/-- The visits of properties in order. -/
def propertiesRoute (chosen : Expr → Bool) : List Property → List Stop
  | [] => []
  | property :: rest => property.route chosen ++ propertiesRoute chosen rest
termination_by structural properties => properties

/-- The visits of the expressions inside a binding. -/
def Script.Binding.route (chosen : Expr → Bool) : Binding → List Stop
  | .name _ _ => []
  | .pattern parts => exprsRoute chosen parts
termination_by structural binding => binding

/-- The visits of the expressions inside a parameter. -/
def Script.Parameter.route (chosen : Expr → Bool) : Parameter → List Stop
  | .plain binding => binding.route chosen
  | .defaulted binding value => binding.route chosen ++ value.route chosen
  | .rest binding => binding.route chosen
termination_by structural parameter => parameter

/-- The visits of the expressions inside parameters in order. -/
def parametersRoute (chosen : Expr → Bool) : List Parameter → List Stop
  | [] => []
  | parameter :: rest => parameter.route chosen ++ parametersRoute chosen rest
termination_by structural parameters => parameters

/-- The visits of the expressions inside a declarator. -/
def Script.Declarator.route (chosen : Expr → Bool) : Declarator → List Stop
  | .bare binding => binding.route chosen
  | .initialized binding value => binding.route chosen ++ value.route chosen
termination_by structural declarator => declarator

/-- The visits of the expressions inside declarators in order. -/
def declaratorsRoute (chosen : Expr → Bool) : List Declarator → List Stop
  | [] => []
  | declarator :: rest => declarator.route chosen ++ declaratorsRoute chosen rest
termination_by structural declarators => declarators

/-- The visits of the value of an attribute. -/
def Script.Attribute.route (chosen : Expr → Bool) : Attribute → List Stop
  | .named _ value _ => value.route chosen
  | .foreign value => value.route chosen
  | .spread e => e.route chosen
termination_by structural given => given

/-- The visits of the values of attributes in order. -/
def attributesRoute (chosen : Expr → Bool) : List Attribute → List Stop
  | [] => []
  | given :: rest => given.route chosen ++ attributesRoute chosen rest
termination_by structural givens => givens

/-- The visits of a child of an element. -/
def Script.Child.route (chosen : Expr → Bool) : Child → List Stop
  | .text _ _ => []
  | .value e _ => e.route chosen
  | .spread e _ => e.route chosen
termination_by structural child => child

/-- The visits of the children of an element in order. -/
def childrenRoute (chosen : Expr → Bool) : List Child → List Stop
  | [] => []
  | child :: rest => child.route chosen ++ childrenRoute chosen rest
termination_by structural children => children

/-- The visits of a statement. Variables are bound after the whole declaration has been visited. -/
def Script.Stmt.route (chosen : Expr → Bool) : Stmt → List Stop
  | .expression e _ => e.route chosen
  | .variables _ declarators span =>
    declaratorsRoute chosen declarators ++
      declarators.map fun declarator =>
        .outside (.declare declarator (declarators.length = 1) span)
  | .returns value => value.route chosen
  | .other parts => partsRoute chosen parts
termination_by structural s => s

/-- The visits of statements in order. -/
def stmtsRoute (chosen : Expr → Bool) : List Stmt → List Stop
  | [] => []
  | s :: rest => s.route chosen ++ stmtsRoute chosen rest
termination_by structural statements => statements

/-- The visits of a part of a construct without a form of its own. -/
def Script.Part.route (chosen : Expr → Bool) : Part → List Stop
  | .expr e => e.route chosen
  | .stmt s => s.route chosen
termination_by structural part => part

/-- The visits of the parts of a construct without a form of its own. -/
def partsRoute (chosen : Expr → Bool) : List Part → List Stop
  | [] => []
  | part :: rest => part.route chosen ++ partsRoute chosen rest
termination_by structural parts => parts
end

/-! ## The walk and its visits -/

/-- Makes the visits of a route one after another. -/
def Usage.follow (context : UsageContext) (usage : Usage) (route : List Stop) : Usage :=
  route.foldl (fun usage stop => stop.visit.apply context usage) usage

/-- A step does what the visits of a route do one after another, each in the given manner. -/
def Follows (act : Usage → Stop → Usage) (step : Usage → Usage) (route : List Stop) : Prop :=
  ∀ usage, step usage = route.foldl act usage

namespace Follows

variable {act : Usage → Stop → Usage} {step next : Usage → Usage} {route later : List Stop}

theorem nothing : Follows act (fun usage => usage) [] := fun _ => rfl

theorem stop (stop : Stop) : Follows act (fun usage => act usage stop) [stop] := fun _ => rfl

/-- Steps that follow two routes follow both, one behind the other. -/
theorem andThen (h : Follows act step route) (h' : Follows act next later) :
    Follows act (fun usage => next (step usage)) (route ++ later) := by
  intro usage
  rw [List.foldl_append, ← h usage, ← h' (step usage)]

end Follows

section Callee

variable {chosen : Expr → Bool} {callee owner : Expr} {property : String} {propertySpan span : Span}

theorem isMember_of_unparen (member : callee.unparen = .member owner property propertySpan span) :
    callee.isMember = true := by
  rw [Expr.isMember, member]

/-- The visits of a member begin with its read. -/
theorem route_of_unparen (member : callee.unparen = .member owner property propertySpan span) :
    callee.route chosen = .outside (.member owner property propertySpan) :: owner.route chosen := by
  rw [← apply_unparen (Expr.route chosen) (fun _ _ => rfl) callee, member, Expr.route]

/-- What is a member behind any parentheses reads a property of an owner. -/
theorem exists_member_of_isMember (member : callee.isMember = true) :
    ∃ owner property propertySpan span,
      callee.unparen = .member owner property propertySpan span := by
  unfold Expr.isMember at member
  split at member
  next owner property propertySpan span bare => exact ⟨owner, property, propertySpan, span, bare⟩
  next => cases member

/-- To read such a callee is to check the member. -/
theorem readCallee_of_unparen {context : UsageContext} (usage : Usage)
    (member : callee.unparen = .member owner property propertySpan span) :
    usage.readCallee context callee = usage.checkMember context owner property propertySpan := by
  rw [Usage.readCallee, member]

theorem readCallee_of_not_isMember {context : UsageContext} (usage : Usage)
    (other : callee.isMember = false) : usage.readCallee context callee = usage := by
  unfold Expr.isMember at other
  unfold Usage.readCallee
  split at other
  next => cases other
  next => rfl

end Callee

section Call

variable {context : UsageContext} {chosen : Expr → Bool} {act : Usage → Stop → Usage}
  {callee : Expr} {walkCallee walkReceiver walkArgs : Usage → Usage} {argsRoute : List Stop}

/-- Only the call of a member is checked as one of a method or a static. -/
theorem callKind_of_not_isMember (usage : Usage) (other : callee.isMember = false) :
    usage.callKind context callee = .construction ∨ usage.callKind context callee = .plain := by
  unfold Usage.callKind
  split
  · exact .inl rfl
  · cases bare : callee.unparen with
    | member owner property propertySpan span =>
        rw [isMember_of_unparen bare] at other
        cases other
    | _ => exact .inr rfl

/-- A callee is read, and then what lies beyond the read is visited. -/
theorem callee_follows (acts : ∀ usage visit, act usage (.outside visit) = visit.apply context usage)
    (ofCallee : Follows act walkCallee (callee.route chosen)) (usage : Usage) :
    walkCallee usage =
      (beyondRead callee (callee.route chosen)).foldl act (usage.readCallee context callee) := by
  rw [ofCallee usage, beyondRead]
  by_cases member : callee.isMember = true
  · obtain ⟨owner, property, propertySpan, span, bare⟩ := exists_member_of_isMember member
    rw [if_pos member, route_of_unparen bare, readCallee_of_unparen usage bare, List.foldl_cons,
      acts]
    rfl
  · rw [if_neg member, readCallee_of_not_isMember usage (by simpa using member)]

/-- A call is looked at; then the parts of its callee and its arguments are visited. -/
theorem call_follows (acts : ∀ usage visit, act usage (.outside visit) = visit.apply context usage)
    (ofCallee : Follows act walkCallee (callee.route chosen))
    (ofReceiver : callee.isMember = true → Follows act walkReceiver (callee.route chosen).tail)
    (ofArgs : Follows act walkArgs argsRoute) (args : List Item) (span : Span) :
    Follows act
      (fun usage =>
        match usage.callKind context callee with
        | .construction => walkArgs (walkCallee (usage.checkConstruction context args span))
        | .plain => walkArgs (walkCallee usage)
        | kind => walkArgs (walkReceiver (usage.checkCall context kind args)))
      (.outside (.call callee args span) ::
        (beyondRead callee (callee.route chosen) ++ argsRoute)) := by
  intro usage
  have method : ∀ kind, usage.callKind context callee = kind → kind ≠ .construction →
      kind ≠ .plain → callee.isMember = true := by
    intro kind here notConstruction notPlain
    cases other : callee.isMember with
    | true => rfl
    | false =>
        rcases callKind_of_not_isMember usage other with h | h
        · exact absurd (here.symm.trans h) notConstruction
        · exact absurd (here.symm.trans h) notPlain
  rw [List.foldl_cons, List.foldl_append, acts]
  dsimp only [Visit.apply]
  cases kind : usage.callKind context callee with
  | construction =>
      dsimp only
      rw [callee_follows acts ofCallee, ofArgs]
  | plain =>
      dsimp only
      rw [callee_follows acts ofCallee, ofArgs]
  | method component name place =>
      have member := method _ kind (by simp) (by simp)
      dsimp only
      rw [ofReceiver member, ofArgs, beyondRead, if_pos member]
  | static component name place =>
      have member := method _ kind (by simp) (by simp)
      dsimp only
      rw [ofReceiver member, ofArgs, beyondRead, if_pos member]

end Call

section Walk

variable (context : UsageContext) (chosen : Expr → Bool)

/-- A step does what the visits of a route do one after another. -/
abbrev FollowsWalk (context : UsageContext) : (Usage → Usage) → List Stop → Prop :=
  Follows fun usage stop => stop.visit.apply context usage

/-- A body is walked over by its stops, whether or not it is chosen. -/
theorem body_follows {step : Usage → Usage} {route : List Stop} (h : FollowsWalk context step route)
    (isChosen : Bool) : FollowsWalk context step (bodyRoute isChosen route) := by
  intro usage
  rw [h usage, bodyRoute]
  split
  · rw [List.foldl_map]
  · rfl

/-- A statement's variables are bound one after another. -/
theorem declareAll_follows (declarators : List Declarator) (span : Span) :
    FollowsWalk context (fun usage => usage.declareAll context declarators span)
      (declarators.map fun declarator =>
        .outside (.declare declarator (declarators.length = 1) span)) := by
  intro usage
  rw [List.foldl_map]
  simp only [Stop.outside, Visit.apply, Usage.declareOne, decide_eq_true_eq]
  rfl

mutual
/-- The walk over an expression makes its visits. -/
theorem checkExpr_follows :
    (e : Expr) → FollowsWalk context (checkExpr context e) (e.route chosen)
  | .template parts _ => checkExprs_follows parts
  | .array items _ => checkItems_follows items
  | .object properties _ => checkProperties_follows properties
  | .function params body span =>
    (Follows.stop (.outside (.enter params span))).andThen
      (((checkParameters_follows params).andThen
        (body_follows context (checkStmts_follows body) _)).andThen (.stop (.outside .leave)))
  | .arrow params _ body _ =>
    (checkParameters_follows params).andThen (body_follows context (checkStmts_follows body) _)
  | .member owner property propertySpan _ =>
    (Follows.stop (.outside (.member owner property propertySpan))).andThen (checkExpr_follows owner)
  | .call callee args span =>
    call_follows (fun _ _ => rfl) (checkExpr_follows callee)
      (checkReceiver_follows callee) (checkItems_follows args) args span
  | .construct callee args _ => (checkExpr_follows callee).andThen (checkItems_follows args)
  | .unary _ operand _ => checkExpr_follows operand
  | .binary _ left right _ => (checkExpr_follows left).andThen (checkExpr_follows right)
  | .conditional test consequent alternate _ =>
    ((checkExpr_follows test).andThen (checkExpr_follows consequent)).andThen
      (checkExpr_follows alternate)
  | .assign target value _ => by
    have later := checkExpr_follows value
    have whole := (checkExpr_follows target).andThen later
    have owner := fun member => (checkReceiver_follows target member).andThen later
    cases target with
    | member object property propertySpan span => exact owner rfl
    | _ => exact whole
  | .paren inner _ => checkExpr_follows inner
  | .element tag attributes children _ span =>
    (Follows.stop (.outside (.tagged tag attributes children span))).andThen
      ((checkAttributes_follows attributes).andThen (checkChildren_follows children))
  | .fragment children _ => checkChildren_follows children
  | .other _ parts _ => checkParts_follows parts
  | .ident _ _ | .this _ | .string _ _ | .number _ _ | .bool _ _ | .null _ | .regex _ => .nothing

theorem checkReceiver_follows : (e : Expr) → e.isMember = true →
    FollowsWalk context (checkReceiver context e) (e.route chosen).tail
  | .paren inner _, member => checkReceiver_follows inner member
  | .member owner _ _ _, _ => checkExpr_follows owner

theorem checkExprs_follows :
    (es : List Expr) → FollowsWalk context (checkExprs context es) (exprsRoute chosen es)
  | [] => .nothing
  | e :: rest => (checkExpr_follows e).andThen (checkExprs_follows rest)

theorem checkItem_follows :
    (item : Item) → FollowsWalk context (checkItem context item) (item.route chosen)
  | .value e => checkExpr_follows e
  | .spread e _ => checkExpr_follows e
  | .hole => .nothing

theorem checkItems_follows :
    (items : List Item) → FollowsWalk context (checkItems context items) (itemsRoute chosen items)
  | [] => .nothing
  | item :: rest => (checkItem_follows item).andThen (checkItems_follows rest)

theorem checkKey_follows :
    (key : Key) → FollowsWalk context (checkKey context key) (key.route chosen)
  | .named _ _ => .nothing
  | .computed e => checkExpr_follows e

theorem checkProperty_follows : (property : Property) →
    FollowsWalk context (checkProperty context property) (property.route chosen)
  | .entry key value _ => (checkKey_follows key).andThen (checkExpr_follows value)
  | .spread e _ => checkExpr_follows e

theorem checkProperties_follows : (properties : List Property) →
    FollowsWalk context (checkProperties context properties) (propertiesRoute chosen properties)
  | [] => .nothing
  | property :: rest => (checkProperty_follows property).andThen (checkProperties_follows rest)

theorem checkBinding_follows : (binding : Binding) →
    FollowsWalk context (checkBinding context binding) (binding.route chosen)
  | .name _ _ => .nothing
  | .pattern parts => checkExprs_follows parts

theorem checkParameter_follows : (parameter : Parameter) →
    FollowsWalk context (checkParameter context parameter) (parameter.route chosen)
  | .plain binding => checkBinding_follows binding
  | .defaulted binding value => (checkBinding_follows binding).andThen (checkExpr_follows value)
  | .rest binding => checkBinding_follows binding

theorem checkParameters_follows : (parameters : List Parameter) →
    FollowsWalk context (checkParameters context parameters) (parametersRoute chosen parameters)
  | [] => .nothing
  | parameter :: rest => (checkParameter_follows parameter).andThen (checkParameters_follows rest)

theorem checkDeclarator_follows : (declarator : Declarator) →
    FollowsWalk context (checkDeclarator context declarator) (declarator.route chosen)
  | .bare binding => checkBinding_follows binding
  | .initialized binding value => (checkBinding_follows binding).andThen (checkExpr_follows value)

theorem checkDeclarators_follows : (declarators : List Declarator) →
    FollowsWalk context (checkDeclarators context declarators) (declaratorsRoute chosen declarators)
  | [] => .nothing
  | declarator :: rest =>
    (checkDeclarator_follows declarator).andThen (checkDeclarators_follows rest)

theorem checkAttribute_follows : (given : Attribute) →
    FollowsWalk context (checkAttribute context given) (given.route chosen)
  | .named _ value _ => checkExpr_follows value
  | .foreign value => checkExpr_follows value
  | .spread e => checkExpr_follows e

theorem checkAttributes_follows : (givens : List Attribute) →
    FollowsWalk context (checkAttributes context givens) (attributesRoute chosen givens)
  | [] => .nothing
  | given :: rest => (checkAttribute_follows given).andThen (checkAttributes_follows rest)

theorem checkChild_follows : (child : Child) →
    FollowsWalk context (checkChild context child) (child.route chosen)
  | .text _ _ => .nothing
  | .value e _ => checkExpr_follows e
  | .spread e _ => checkExpr_follows e

theorem checkChildren_follows : (children : List Child) →
    FollowsWalk context (checkChildren context children) (childrenRoute chosen children)
  | [] => .nothing
  | child :: rest => (checkChild_follows child).andThen (checkChildren_follows rest)

/-- The walk over a statement makes its visits. -/
theorem checkStmt_follows : (s : Stmt) → FollowsWalk context (checkStmt context s) (s.route chosen)
  | .expression e _ => checkExpr_follows e
  | .variables _ declarators span =>
    (checkDeclarators_follows declarators).andThen (declareAll_follows context declarators span)
  | .returns value => checkExpr_follows value
  | .other parts => checkParts_follows parts

/-- The walk over statements makes their visits. -/
theorem checkStmts_follows : (statements : List Stmt) →
    FollowsWalk context (checkStmts context statements) (stmtsRoute chosen statements)
  | [] => .nothing
  | s :: rest => (checkStmt_follows s).andThen (checkStmts_follows rest)

theorem checkPart_follows : (part : Part) →
    FollowsWalk context (checkPart context part) (part.route chosen)
  | .expr e => checkExpr_follows e
  | .stmt s => checkStmt_follows s

theorem checkParts_follows : (parts : List Part) →
    FollowsWalk context (checkParts context parts) (partsRoute chosen parts)
  | [] => .nothing
  | part :: rest => (checkPart_follows part).andThen (checkParts_follows rest)
end

end Walk

/-! ## What a visit adds -/

section Visits

variable (context : UsageContext)

theorem readCallee_appends (callee : Expr) :
    Usage.Appends fun usage => usage.readCallee context callee := by
  unfold Usage.readCallee
  split
  next owner property propertySpan span member =>
    exact Usage.checkMember_appends context owner property propertySpan
  next => exact .nothing

/-- Binding a variable appends. -/
theorem declareOne_appends (declarator : Declarator) (alone : Bool) (span : Span) :
    Usage.Appends fun usage => usage.declareOne context declarator alone span := by
  unfold Usage.declareOne
  cases declarator.binding.name? with
  | none => exact .nothing
  | some name =>
      exact .choose (fun type usage => usage.declare name type)
        (fun usage => usage.declaredType context _ name declarator.init?) (fun _ => rfl)
        (Usage.declare_appends name)

/-- Each visit looks at the variables alone and adds to what was found. -/
theorem Visit.apply_appends (visit : Visit) :
    Usage.Appends fun usage => visit.apply context usage := by
  cases visit with
  | enter params span => exact Usage.enter_appends context params span
  | leave => exact Usage.leave_appends
  | member owner property propertySpan =>
      exact Usage.checkMember_appends context owner property propertySpan
  | call callee args span =>
      intro usage
      have blind : usage.callKind context callee = usage.bare.callKind context callee := rfl
      have read := readCallee_appends context callee
      simp only [Visit.apply]
      rw [blind]
      split
      · exact ((Usage.checkConstruction_appends context args span).andThen read) usage
      · exact read usage
      · exact Usage.checkCall_appends context _ args usage
  | tagged tag attributes children span =>
      exact Usage.checkTagged_appends context tag attributes children span
  | declare declarator alone span => exact declareOne_appends context declarator alone span

/-- Whether the visit looks at something; the other visits bind variables and set scopes. -/
def Visit.looks : Visit → Bool
  | .member _ _ _ => true
  | .call _ _ _ => true
  | .tagged _ _ _ _ => true
  | .enter _ _ => false
  | .leave => false
  | .declare _ _ _ => false

/-- The step leaves what was found as it is. -/
def Usage.Quiet (step : Usage → Usage) : Prop :=
  ∀ usage, (step usage).found = usage.found ∧ (step usage).attached = usage.attached

namespace Usage.Quiet

variable {step next : Usage → Usage}

theorem nothing : Usage.Quiet fun usage => usage := fun _ => ⟨rfl, rfl⟩

theorem andThen (h : Usage.Quiet step) (h' : Usage.Quiet next) :
    Usage.Quiet fun usage => next (step usage) := fun usage =>
  ⟨(h' (step usage)).1.trans (h usage).1, (h' (step usage)).2.trans (h usage).2⟩

theorem foldl {ι : Type} {steps : Usage → ι → Usage} (each : ∀ item, Usage.Quiet (steps · item))
    (items : List ι) : Usage.Quiet fun usage => items.foldl steps usage := by
  induction items with
  | nil => exact nothing
  | cons item rest ih => exact (each item).andThen ih

theorem declare (name : String) (type : Ty) : Usage.Quiet fun usage => usage.declare name type := by
  intro usage
  dsimp only [Usage.declare]
  split <;> exact ⟨rfl, rfl⟩

theorem declareParams (params : List Parameter) (signature : Signature) :
    Usage.Quiet fun usage => usage.declareParams params signature := by
  apply foldl
  rintro ⟨param, index⟩
  dsimp only
  cases param.binding.name? with
  | none => exact nothing
  | some name => exact declare name _

theorem enter (params : List Parameter) (span : Span) :
    Usage.Quiet fun usage => usage.enter context params span := by
  intro usage
  unfold Usage.enter
  split
  · dsimp only
    split
    · exact declareParams params _ _
    · exact ⟨rfl, rfl⟩
  · exact ⟨rfl, rfl⟩

theorem declareOne (declarator : Declarator) (alone : Bool) (span : Span) :
    Usage.Quiet fun usage => usage.declareOne context declarator alone span := by
  intro usage
  unfold Usage.declareOne
  dsimp only
  split
  · exact declare _ _ usage
  · exact ⟨rfl, rfl⟩

end Usage.Quiet

/-- A visit that does not look at anything finds nothing. -/
theorem Visit.apply_quiet {visit : Visit} (blind : visit.looks = false) :
    Usage.Quiet fun usage => visit.apply context usage := by
  cases visit with
  | enter params span => exact .enter context params span
  | leave => exact fun _ => ⟨rfl, rfl⟩
  | declare declarator alone span => exact .declareOne context declarator alone span
  | _ => cases blind

/-- Reading a callee binds nothing. -/
theorem readCallee_frames (usage : Usage) (callee : Expr) :
    (usage.readCallee context callee).frames = usage.frames := by
  unfold Usage.readCallee
  split <;> rfl

/-- A visit that looks at something leaves the variables as they are. -/
theorem Visit.apply_frames {visit : Visit} (looks : visit.looks = true) (usage : Usage) :
    (visit.apply context usage).frames = usage.frames := by
  cases visit with
  | member owner property propertySpan => rfl
  | call callee args span =>
      simp only [Visit.apply]
      split
      · rw [readCallee_frames, Usage.checkConstruction_frames]
      · rw [readCallee_frames]
      · unfold Usage.checkCall
        split <;> rfl
  | tagged tag attributes children span =>
      exact Usage.checkTagged_frames context tag attributes children span usage
  | _ => cases looks

/-- What a visit finds. -/
def Visit.found (context : UsageContext) (usage : Usage) (visit : Visit) : List Diagnostic :=
  (visit.apply context usage.bare).found

/-- A visit adds its own findings. -/
theorem Visit.apply_found (visit : Visit) (usage : Usage) :
    (visit.apply context usage).found = visit.found context usage ++ usage.found :=
  (Visit.apply_appends context visit).found usage

/-- Following two routes is following one and then the other. -/
theorem Usage.follow_append (usage : Usage) (before after : List Stop) :
    usage.follow context (before ++ after) = (usage.follow context before).follow context after :=
  List.foldl_append

/-- What the visits of a route add to the findings is what some visit finds, in the state that the
visits before it lead to. -/
theorem Usage.mem_follow_found (route : List Stop) (usage : Usage) (problem : Diagnostic) :
    problem ∈ (usage.follow context route).found ↔
      problem ∈ usage.found ∨ ∃ before stop after, route = before ++ stop :: after ∧
        problem ∈ stop.visit.found context (usage.follow context before) := by
  induction route generalizing usage with
  | nil => simp [Usage.follow]
  | cons first rest ih =>
      have onward : usage.follow context (first :: rest) =
          (first.visit.apply context usage).follow context rest := rfl
      rw [onward, ih, Visit.apply_found, List.mem_append]
      constructor
      · rintro ((here | earlier) | ⟨before, stop, after, rfl, later⟩)
        · exact .inr ⟨[], first, rest, rfl, here⟩
        · exact .inl earlier
        · exact .inr ⟨first :: before, stop, after, rfl, later⟩
      · rintro (earlier | ⟨before, stop, after, route, found⟩)
        · exact .inl (.inr earlier)
        · cases before with
          | nil =>
              cases route
              exact .inl (.inl found)
          | cons leading before =>
              cases route
              exact .inr ⟨before, stop, after, rfl, found⟩

end Visits

/-! ## The check of a program -/

section Program

variable (options : Options) (registry : Registry) (table : TypeTable) (file : Nat)
  (source : String) (program : Program)

/-- What the check of a program works with. -/
def programContext : UsageContext :=
  { unit :=
      { file := file, text := source.toList, comments := program.comments.toArray,
        options := options },
    table := table, methods := methodPlaces registry table file }

/-- The check of a program makes the visits of its statements. -/
theorem checkProgram_follows (chosen : Expr → Bool) :
    checkProgram options registry table file source program =
      (let usage := Usage.start.follow
        (programContext options registry table file source program)
        (stmtsRoute chosen program.body)
       { result := CheckResult.empty.extend usage.found.reverse,
         attachments := usage.attached.reverse }) := by
  rw [checkProgram]
  dsimp only
  rw [Usage.follow, ← checkStmts_follows _ chosen program.body Usage.start]
  rfl

theorem CheckResult.extend_diagnostics (result : CheckResult) (problems : List Diagnostic) :
    (result.extend problems).diagnostics = result.diagnostics ++ problems := by
  have added : ∀ (result : CheckResult) problem,
      (result.add problem).diagnostics = result.diagnostics ++ [problem] := by
    intro result problem
    cases graveness : problem.severity <;> rw [CheckResult.add, graveness]
  induction problems generalizing result with
  | nil => exact (List.append_nil _).symm
  | cons problem rest ih =>
      have onward : result.extend (problem :: rest) = (result.add problem).extend rest := rfl
      rw [onward, ih, added, List.append_assoc, List.singleton_append]

/-- What is reported of a program is what its visits find. -/
theorem checkProgram_diagnostics (chosen : Expr → Bool) :
    (checkProgram options registry table file source program).result.diagnostics =
      ((Usage.start.follow (programContext options registry table file source program)
        (stmtsRoute chosen program.body)).found).reverse := by
  rw [checkProgram_follows options registry table file source program chosen,
    CheckResult.extend_diagnostics]
  exact List.nil_append _

end Program

end ClassFactory
