/-
Module: ClassFactory.Proofs.Usage.Steps
Purpose: What a walk over a program does at one place depends on the variables in scope alone, and
  puts what it finds on top of what was found before. So any part of a program can be looked at on
  its own, from a state in which nothing has been found yet.
Main exports: Usage.bare, Usage.onto, Usage.Appends, checkExpr_appends, checkItems_appends,
  checkStmts_appends
-/
import ClassFactory.Usage.Check

namespace ClassFactory

open Script (Expr Item Property Key Tag Binding Parameter Declarator Attribute Child Stmt Part)

namespace Usage

/-- The state with the same variables in which nothing was found yet. -/
def bare (usage : Usage) : Usage := { usage with found := [], attached := [] }

/-- The state with what was found on top of what was found earlier. -/
def onto (added earlier : Usage) : Usage :=
  { frames := added.frames, found := added.found ++ earlier.found,
    attached := added.attached ++ earlier.attached }

/-- The step looks at the variables alone and adds to what was found. -/
def Appends (step : Usage → Usage) : Prop := ∀ usage, step usage = (step usage.bare).onto usage

theorem onto_assoc (last middle first : Usage) :
    (last.onto middle).onto first = last.onto (middle.onto first) := by
  simp [onto]

theorem bare_onto (added earlier : Usage) : (added.onto earlier).bare = added.bare := rfl

theorem bare_eq_of_frames {one other : Usage} (same : one.frames = other.frames) :
    one.bare = other.bare := by
  rw [bare, bare, same]

namespace Appends

variable {step next : Usage → Usage}

/-- The variables behind a step depend on the variables only. -/
theorem frames (h : Appends step) (usage : Usage) :
    (step usage).frames = (step usage.bare).frames := by
  rw [h usage]
  rfl

/-- A step puts what it finds in front of what was found. -/
theorem found (h : Appends step) (usage : Usage) :
    (step usage).found = (step usage.bare).found ++ usage.found := by
  rw [h usage]
  rfl

theorem attached (h : Appends step) (usage : Usage) :
    (step usage).attached = (step usage.bare).attached ++ usage.attached := by
  rw [h usage]
  rfl

theorem nothing : Appends fun usage => usage := fun _ => rfl

/-- Steps that append do so one after the other. -/
theorem andThen (h : Appends step) (h' : Appends next) : Appends fun usage => next (step usage) := by
  intro usage
  have same : (step usage).bare = (step usage.bare).bare := by
    rw [h usage, bare_onto]
  calc next (step usage)
      = (next (step usage).bare).onto (step usage) := h' _
    _ = (next (step usage.bare).bare).onto ((step usage.bare).onto usage) := by rw [same, ← h usage]
    _ = ((next (step usage.bare).bare).onto (step usage.bare)).onto usage := (onto_assoc _ _ _).symm
    _ = (next (step usage.bare)).onto usage := by rw [← h' (step usage.bare)]

/-- Findings that depend on the variables alone are added. -/
theorem report {problems : Usage → List Diagnostic}
    (blind : ∀ usage, problems usage = problems usage.bare) :
    Appends fun usage => usage.report (problems usage) := by
  intro usage
  simp [Usage.report, onto, bare, blind usage]

/-- A step that only changes the variables. -/
theorem change (change : List Frame → List Frame) :
    Appends fun usage => { usage with frames := change usage.frames } := fun _ => rfl

/-- A step that is chosen by the variables. -/
theorem choose {κ : Type} (steps : κ → Usage → Usage) (choice : Usage → κ)
    (blind : ∀ usage, choice usage = choice usage.bare) (each : ∀ kind, Appends (steps kind)) :
    Appends fun usage => steps (choice usage) usage := by
  intro usage
  change steps (choice usage) usage = (steps (choice usage.bare) usage.bare).onto usage
  rw [blind usage]
  exact each (choice usage.bare) usage

/-- So do any number of steps. -/
theorem foldl {ι : Type} {steps : Usage → ι → Usage} (each : ∀ item, Appends (steps · item))
    (items : List ι) : Appends fun usage => items.foldl steps usage := by
  induction items with
  | nil => exact nothing
  | cons item rest ih => exact (each item).andThen ih

end Appends

/-! ## Variables -/

theorem declare_appends (name : String) (type : Ty) : Appends fun usage => usage.declare name type := by
  intro usage
  cases usage with
  | mk frames found attached =>
      cases frames with
      | nil => rfl
      | cons frame rest => rfl

/-- Binding the parameters of a signature finds nothing. -/
theorem declareParams_appends (params : List Parameter) (signature : Signature) :
    Appends fun usage => usage.declareParams params signature := by
  apply Appends.foldl
  rintro ⟨param, index⟩
  dsimp only
  cases param.binding.name? with
  | none => exact .nothing
  | some name => exact declare_appends name _

/-- Entering a function finds nothing. -/
theorem enter_appends (context : UsageContext) (params : List Parameter) (span : Span) :
    Appends fun usage => usage.enter context params span := by
  cases found : context.methods.find? (·.start = span.start) with
  | none =>
      simp only [Usage.enter, found]
      exact .change fun frames => { scope := [], owner := none } :: frames
  | some place =>
      have entered : Appends fun usage => { usage with
          frames := { scope := [], owner := some place.component } :: usage.frames } :=
        .change fun frames => { scope := [], owner := some place.component } :: frames
      have owned : ∀ usage : Usage, Usage.self? context { usage with
          frames := { scope := [], owner := some place.component } :: usage.frames } =
            context.table.component? place.component := fun _ => rfl
      simp only [Usage.enter, found, owned]
      cases ((context.table.component? place.component).bind fun c =>
          c.method? place.method).bind MethodType.signature with
      | some signature => exact entered.andThen (declareParams_appends params signature)
      | none => exact entered

theorem leave_appends : Appends Usage.leave := .change _

/-- Binding what a statement declares finds nothing. -/
theorem declareAll_appends (context : UsageContext) (declarators : List Declarator) (span : Span) :
    Appends fun usage => usage.declareAll context declarators span := by
  unfold declareAll
  apply Appends.foldl
  intro declarator
  cases declarator.binding.name? with
  | none => exact .nothing
  | some name =>
      exact .choose (fun type usage => usage.declare name type)
        (fun usage => usage.declaredType context _ name declarator.init?) (fun _ => rfl)
        (declare_appends name)

/-! ## Checks at one place -/

/-- An element is attached with its type, and if its component is known its props are checked. -/
theorem construct_appends (context : UsageContext) (site : Site) {type : Usage → Ty}
    {problems : ComponentType → Usage → List Diagnostic}
    (blindType : ∀ usage, type usage = type usage.bare)
    (blind : ∀ component usage, problems component usage = problems component usage.bare) :
    Appends fun usage =>
      match elementComponent? context (type usage) with
      | some component => (usage.attach site (type usage)).report (problems component usage)
      | none => usage.attach site (type usage) := by
  intro usage
  dsimp only
  rw [blindType usage]
  cases elementComponent? context (type usage.bare) with
  | none => rfl
  | some component =>
      dsimp only
      rw [blind component usage]
      simp [Usage.attach, Usage.report, onto, bare]

/-- Checking a construction adds its findings and the type of the element. -/
theorem checkConstruction_appends (context : UsageContext) (args : List Item) (span : Span) :
    Appends fun usage => usage.checkConstruction context args span := by
  cases args with
  | nil => exact .report fun _ => rfl
  | cons first rest =>
      cases first with
      | value tag => exact construct_appends context _ (fun _ => rfl) fun _ _ => rfl
      | spread e span => exact .nothing
      | hole => exact .nothing

theorem checkTagged_appends (context : UsageContext) (tag : Tag) (attributes : List Attribute)
    (children : List Child) (span : Span) :
    Appends fun usage => usage.checkTagged context tag attributes children span :=
  construct_appends context _ (fun _ => rfl) fun _ _ => rfl

/-- It binds nothing. -/
theorem checkConstruction_frames (context : UsageContext) (args : List Item) (span : Span)
    (usage : Usage) : (usage.checkConstruction context args span).frames = usage.frames := by
  unfold checkConstruction
  split
  · rfl
  · dsimp only
    split <;> rfl
  · rfl

theorem checkTagged_frames (context : UsageContext) (tag : Tag) (attributes : List Attribute)
    (children : List Child) (span : Span) (usage : Usage) :
    (usage.checkTagged context tag attributes children span).frames = usage.frames := by
  unfold checkTagged
  dsimp only
  split <;> rfl

/-- Checking a member adds its findings. -/
theorem checkMember_appends (context : UsageContext) (owner : Expr) (property : String)
    (propertySpan : Span) :
    Appends fun usage => usage.checkMember context owner property propertySpan :=
  .report fun _ => rfl

/-- Checking a call adds its findings. -/
theorem checkCall_appends (context : UsageContext) (kind : CallKind) (args : List Item) :
    Appends fun usage => usage.checkCall context kind args := by
  cases kind with
  | construction => exact .nothing
  | plain => exact .nothing
  | method component name place => exact .report fun _ => rfl
  | static component name place => exact .report fun _ => rfl

end Usage

/-! ## The walk -/

open Usage (Appends)

mutual
/-- Checking an expression adds to what was found. -/
theorem checkExpr_appends (context : UsageContext) : (e : Expr) → Appends (checkExpr context e)
  | .template parts _ => checkExprs_appends context parts
  | .array items _ => checkItems_appends context items
  | .object properties _ => checkProperties_appends context properties
  | .function params body span =>
    (((Usage.enter_appends context params span).andThen
      (checkParameters_appends context params)).andThen (checkStmts_appends context body)).andThen
      Usage.leave_appends
  | .arrow params _ body _ =>
    (checkParameters_appends context params).andThen (checkStmts_appends context body)
  | .member owner property propertySpan _ =>
    (Usage.checkMember_appends context owner property propertySpan).andThen
      (checkExpr_appends context owner)
  | .call callee args span => by
    have whole := (checkExpr_appends context callee).andThen (checkItems_appends context args)
    have receiver := (checkReceiver_appends context callee).andThen (checkItems_appends context args)
    intro usage
    have blind : usage.callKind context callee = usage.bare.callKind context callee := rfl
    simp only [checkExpr]
    rw [blind]
    split
    · exact ((Usage.checkConstruction_appends context args span).andThen whole) usage
    · exact whole usage
    · exact ((Usage.checkCall_appends context _ args).andThen receiver) usage
  | .construct callee args _ =>
    (checkExpr_appends context callee).andThen (checkItems_appends context args)
  | .unary _ operand _ => checkExpr_appends context operand
  | .binary _ left right _ =>
    (checkExpr_appends context left).andThen (checkExpr_appends context right)
  | .conditional test consequent alternate _ =>
    ((checkExpr_appends context test).andThen (checkExpr_appends context consequent)).andThen
      (checkExpr_appends context alternate)
  | .assign target value _ => by
    have later := checkExpr_appends context value
    have whole := (checkExpr_appends context target).andThen later
    have owner := (checkReceiver_appends context target).andThen later
    cases target with
    | member object property propertySpan span => exact owner
    | _ => exact whole
  | .paren inner _ => checkExpr_appends context inner
  | .element tag attributes children _ span =>
    ((Usage.checkTagged_appends context tag attributes children span).andThen
      (checkAttributes_appends context attributes)).andThen (checkChildren_appends context children)
  | .fragment children _ => checkChildren_appends context children
  | .other _ parts _ => checkParts_appends context parts
  | .ident _ _ | .this _ | .string _ _ | .number _ _ | .bool _ _ | .null _ | .regex _ => .nothing

theorem checkReceiver_appends (context : UsageContext) :
    (e : Expr) → Appends (checkReceiver context e)
  | .paren inner _ => checkReceiver_appends context inner
  | .member owner _ _ _ => checkExpr_appends context owner
  | .ident _ _ | .this _ | .string _ _ | .number _ _ | .bool _ _ | .null _ | .regex _
  | .template _ _ | .array _ _ | .object _ _ | .function _ _ _ | .arrow _ _ _ _ | .call _ _ _
  | .construct _ _ _ | .unary _ _ _ | .binary _ _ _ _ | .conditional _ _ _ _ | .assign _ _ _
  | .element _ _ _ _ _ | .fragment _ _ | .other _ _ _ => .nothing

theorem checkExprs_appends (context : UsageContext) :
    (es : List Expr) → Appends (checkExprs context es)
  | [] => .nothing
  | e :: rest => (checkExpr_appends context e).andThen (checkExprs_appends context rest)

theorem checkItem_appends (context : UsageContext) : (item : Item) → Appends (checkItem context item)
  | .value e => checkExpr_appends context e
  | .spread e _ => checkExpr_appends context e
  | .hole => .nothing

theorem checkItems_appends (context : UsageContext) :
    (items : List Item) → Appends (checkItems context items)
  | [] => .nothing
  | item :: rest => (checkItem_appends context item).andThen (checkItems_appends context rest)

theorem checkKey_appends (context : UsageContext) : (key : Key) → Appends (checkKey context key)
  | .named _ _ => .nothing
  | .computed e => checkExpr_appends context e

theorem checkProperty_appends (context : UsageContext) :
    (property : Property) → Appends (checkProperty context property)
  | .entry key value _ => (checkKey_appends context key).andThen (checkExpr_appends context value)
  | .spread e _ => checkExpr_appends context e

theorem checkProperties_appends (context : UsageContext) :
    (properties : List Property) → Appends (checkProperties context properties)
  | [] => .nothing
  | property :: rest =>
    (checkProperty_appends context property).andThen (checkProperties_appends context rest)

theorem checkBinding_appends (context : UsageContext) :
    (binding : Binding) → Appends (checkBinding context binding)
  | .name _ _ => .nothing
  | .pattern parts => checkExprs_appends context parts

theorem checkParameter_appends (context : UsageContext) :
    (parameter : Parameter) → Appends (checkParameter context parameter)
  | .plain binding => checkBinding_appends context binding
  | .defaulted binding value =>
    (checkBinding_appends context binding).andThen (checkExpr_appends context value)
  | .rest binding => checkBinding_appends context binding

theorem checkParameters_appends (context : UsageContext) :
    (parameters : List Parameter) → Appends (checkParameters context parameters)
  | [] => .nothing
  | parameter :: rest =>
    (checkParameter_appends context parameter).andThen (checkParameters_appends context rest)

theorem checkDeclarator_appends (context : UsageContext) :
    (declarator : Declarator) → Appends (checkDeclarator context declarator)
  | .bare binding => checkBinding_appends context binding
  | .initialized binding value =>
    (checkBinding_appends context binding).andThen (checkExpr_appends context value)

theorem checkDeclarators_appends (context : UsageContext) :
    (declarators : List Declarator) → Appends (checkDeclarators context declarators)
  | [] => .nothing
  | declarator :: rest =>
    (checkDeclarator_appends context declarator).andThen (checkDeclarators_appends context rest)

theorem checkAttribute_appends (context : UsageContext) :
    (given : Attribute) → Appends (checkAttribute context given)
  | .named _ value _ => checkExpr_appends context value
  | .foreign value => checkExpr_appends context value
  | .spread e => checkExpr_appends context e

theorem checkAttributes_appends (context : UsageContext) :
    (givens : List Attribute) → Appends (checkAttributes context givens)
  | [] => .nothing
  | given :: rest =>
    (checkAttribute_appends context given).andThen (checkAttributes_appends context rest)

theorem checkChild_appends (context : UsageContext) :
    (child : Child) → Appends (checkChild context child)
  | .text _ _ => .nothing
  | .value e _ => checkExpr_appends context e
  | .spread e _ => checkExpr_appends context e

theorem checkChildren_appends (context : UsageContext) :
    (children : List Child) → Appends (checkChildren context children)
  | [] => .nothing
  | child :: rest => (checkChild_appends context child).andThen (checkChildren_appends context rest)

/-- Checking a statement adds to what was found. -/
theorem checkStmt_appends (context : UsageContext) : (s : Stmt) → Appends (checkStmt context s)
  | .expression e _ => checkExpr_appends context e
  | .variables _ declarators span =>
    (checkDeclarators_appends context declarators).andThen
      (Usage.declareAll_appends context declarators span)
  | .returns value => checkExpr_appends context value
  | .other parts => checkParts_appends context parts

theorem checkStmts_appends (context : UsageContext) :
    (statements : List Stmt) → Appends (checkStmts context statements)
  | [] => .nothing
  | s :: rest => (checkStmt_appends context s).andThen (checkStmts_appends context rest)

theorem checkPart_appends (context : UsageContext) : (part : Part) → Appends (checkPart context part)
  | .expr e => checkExpr_appends context e
  | .stmt s => checkStmt_appends context s

theorem checkParts_appends (context : UsageContext) :
    (parts : List Part) → Appends (checkParts context parts)
  | [] => .nothing
  | part :: rest => (checkPart_appends context part).andThen (checkParts_appends context rest)
end

end ClassFactory
