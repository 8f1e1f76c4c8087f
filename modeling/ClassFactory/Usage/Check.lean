/-
Module: ClassFactory.Usage.Check
Purpose: Checking every use of a component in a program. The walk follows the source and keeps the
  variables of the functions around it; a function in a specification knows its component as
  `this`, and an arrow function shares variables and `this` with the function around it.
Main exports: MethodPlace, Frame, Usage, UsageContext, UsageReport, checkProgram
-/
import ClassFactory.Factory.Collect
import ClassFactory.Usage.Checks

namespace ClassFactory

open Script (Expr Item Property Key Tag Binding Parameter Declarator Attribute Child Stmt Part
  Program)

/-- The variables of a function, and the component whose method it is. -/
structure Frame where
  scope : Scope
  owner : Option String
deriving Inhabited

/-- A function that is a method of a component: where it begins, the component, and its name. -/
structure MethodPlace where
  start : Nat
  component : String
  method : String
deriving Repr, Inhabited, DecidableEq

/-- The state of a check. -/
structure Usage where
  /-- The functions around the current place, the innermost first. -/
  frames : List Frame
  /-- The findings, the latest first. -/
  found : List Diagnostic
  /-- The types of the elements constructed, the latest first. -/
  attached : List (Site × Ty)
deriving Inhabited

/-- What a check works with. -/
structure UsageContext where
  unit : SourceUnit
  table : TypeTable
  methods : List MethodPlace

namespace Usage

/-- The state at the top of a program. -/
def start : Usage := { frames := [{ scope := [], owner := none }], found := [], attached := [] }

/-- Adds findings. -/
def report (usage : Usage) (problems : List Diagnostic) : Usage :=
  { usage with found := problems.reverse ++ usage.found }

/-- The component that `this` is an instance of. -/
def self? (context : UsageContext) (usage : Usage) : Option ComponentType :=
  ((usage.frames.head?).bind Frame.owner).bind context.table.component?

/-- What is known around the current place. -/
def setting (context : UsageContext) (usage : Usage) : Setting :=
  { table := context.table, options := context.unit.options,
    scopes := usage.frames.map Frame.scope, self := usage.self? context }

/-- Binds a variable in the innermost function. -/
def declare (usage : Usage) (name : String) (type : Ty) : Usage :=
  match usage.frames with
  | frame :: rest =>
    { usage with frames := { frame with scope := (name, type) :: frame.scope } :: rest }
  | [] => usage

/-- Binds parameters to the types that a signature gives them. -/
def declareParams (usage : Usage) (params : List Parameter) (signature : Signature) : Usage :=
  (params.filter fun p => !p.isRest).zipIdx.foldl
    (fun usage (param, index) =>
      match param.binding.name? with
      | some name => usage.declare name (((signature.paramAt? index).map Param.type).getD .unknown)
      | none => usage)
    usage

/-- Enters a function. A method of a component knows the types of its parameters. -/
def enter (context : UsageContext) (usage : Usage) (params : List Parameter) (span : Span) :
    Usage :=
  match context.methods.find? (·.start = span.start) with
  | some place =>
    let usage := { usage with frames := { scope := [], owner := some place.component } ::
                                          usage.frames }
    match ((usage.self? context).bind fun c => c.method? place.method).bind
        MethodType.signature with
    | some signature => usage.declareParams params signature
    | none => usage
  | none => { usage with frames := { scope := [], owner := none } :: usage.frames }

/-- Leaves a function. -/
def leave (usage : Usage) : Usage :=
  { usage with frames := usage.frames.drop 1 }

/-- The type of an expression at its place. -/
def foundType (context : UsageContext) (usage : Usage) (e : Expr) : FoundType :=
  { type := (usage.setting context).infer e, site := context.unit.site e.span }

/-- The arguments of a call. -/
def foundArguments (context : UsageContext) (usage : Usage) (args : List Item) : FoundArguments :=
  { leading :=
      ((args.takeWhile fun a => !a.isSpread).filterMap Item.value?).map (usage.foundType context),
    count := args.length, isSpread := args.any Item.isSpread }

/-- A property as a field that is given; `none` if it is spread or its key is not known. -/
def givenField? (context : UsageContext) (usage : Usage) : Property → Option (String × FoundType)
  | .entry key value _ =>
    key.name?.map fun name =>
      (name,
        { type := (usage.setting context).infer value, site := context.unit.site key.span })
  | .spread _ _ => none

/-- The fields that an object literal in the first place gives. -/
def newState (context : UsageContext) (usage : Usage) (args : List Item) :
    List (String × FoundType) :=
  match (Script.firstValue? args).bind Expr.properties? with
  | some properties => properties.filterMap (usage.givenField? context)
  | none => []

/-- The props that an expression gives an element: those of an object literal or of a record. -/
def givenProps (context : UsageContext) (usage : Usage) (props : Option Expr) : GivenProps :=
  match props.map Expr.unparen with
  | none => .none
  | some (.null _) => .none
  | some (.object properties _) =>
    let fields := properties.map (usage.givenField? context)
    { entries := fields.filterMap id, isOpen := fields.any Option.isNone }
  | some e =>
    let found := usage.foundType context e
    match found.type with
    | .record fields =>
      { entries := fields.map fun field => (field.name, { found with type := field.type }),
        isOpen := false }
    | .undefined => .none
    | _ => .unknown

/-- An item in the place of a child. -/
def givenChild (context : UsageContext) (usage : Usage) : Item → FoundType
  | .value e => usage.foundType context e
  | .spread _ span => { type := .unknown, site := context.unit.site span }
  | .hole => default

/-- Attaches the type of an element to its place. -/
def attach (usage : Usage) (site : Site) (type : Ty) : Usage :=
  { usage with attached := (site, type) :: usage.attached }

/-- The component of an element type. -/
def elementComponent? (context : UsageContext) (type : Ty) : Option ComponentType :=
  match type with
  | .element (some name) => context.table.component? name
  | _ => none

/-- The finding for an element factory called without arguments. -/
def arityProblem (site : Site) : Diagnostic :=
  Diagnostic.error .createElementArity "createElement requires at least the element type" site

/-- Checks a call of the element factory. -/
def checkConstruction (context : UsageContext) (usage : Usage) (args : List Item) (span : Span) :
    Usage :=
  let site := context.unit.site span
  match args with
  | [] => usage.report [arityProblem site]
  | .value tag :: rest =>
    let element := (usage.setting context).elementOf tag
    let attached := usage.attach site element
    match elementComponent? context element with
    | some component =>
      let given := usage.givenProps context (Script.firstValue? rest)
      let children := (rest.drop 1).map (usage.givenChild context)
      attached.report (elementProblems component given children site)
    | none => attached
  | _ => usage

/-- An attribute as a prop that is given; `none` for one in a name space. -/
def givenAttribute? (context : UsageContext) (usage : Usage) :
    Attribute → Option (String × FoundType)
  | .named name value span =>
    some (name, { type := (usage.setting context).infer value, site := context.unit.site span })
  | .foreign _ => none
  | .spread _ => none

/-- Whether an attribute stands for props that are not known. -/
def isOpenAttribute : Attribute → Bool
  | .spread _ => true
  | _ => false

/-- A child of an element with its type; text of nothing but white space is none. -/
def foundChild? (context : UsageContext) (usage : Usage) : Child → Option FoundType
  | .text raw span =>
    let trimmed := Text.trimText raw
    if trimmed.isEmpty then none
    else some { type := .literal (.string trimmed), site := context.unit.site span }
  | .value e span =>
    some { type := (usage.setting context).infer e, site := context.unit.site span }
  | .spread _ span => some { type := .unknown, site := context.unit.site span }

/-- Checks an element that is written as a tag. -/
def checkTagged (context : UsageContext) (usage : Usage) (tag : Tag)
    (attributes : List Attribute) (children : List Child) (span : Span) : Usage :=
  let site := context.unit.site span
  let element := (usage.setting context).taggedElement tag
  let attached := usage.attach site element
  match elementComponent? context element with
  | some component =>
    let given : GivenProps :=
      { entries := attributes.filterMap (usage.givenAttribute? context),
        isOpen := attributes.any isOpenAttribute }
    let children := children.filterMap (usage.foundChild? context)
    attached.report (elementProblems component given children site)
  | none => attached

/-- The findings for reading a member of `this.props` or `this.state`. -/
def receiverProblems (context : UsageContext) (usage : Usage) (owner : Expr) (property : String)
    (place : Site) : List Diagnostic :=
  match owner.unparen with
  | .member receiver holder _ _ =>
    match receiver.unparen, usage.self? context with
    | .this _, some component => receiverMemberProblems component holder property place
    | _, _ => []
  | _ => []

/-- The findings for reading a member of a component's constructor that is known by name. -/
def constructorProblems (context : UsageContext) (usage : Usage) (owner : Expr)
    (property : String) (place : Site) : List Diagnostic :=
  if owner.qualifiedName?.isSome then
    let setting := usage.setting context
    match setting.constructorOf? (setting.infer owner) with
    | some component => staticProblems component property place
    | none => []
  else []

/-- Checks the read of a member. -/
def checkMember (context : UsageContext) (usage : Usage) (owner : Expr) (property : String)
    (propertySpan : Span) : Usage :=
  let place := context.unit.site propertySpan
  usage.report (usage.receiverProblems context owner property place ++
    usage.constructorProblems context owner property place)

/-- What a call does, as far as it is checked. -/
inductive CallKind where
  /-- Constructs an element. -/
  | construction
  /-- Calls a method of an instance. -/
  | method (component : ComponentType) (name : String) (place : Site)
  /-- Calls a static. -/
  | static (component : ComponentType) (name : String) (place : Site)
  | plain

/-- What a call of the callee does. -/
def callKind (context : UsageContext) (usage : Usage) (callee : Expr) : CallKind :=
  if callee.qualifiedName?.any context.unit.options.isElementFactory then .construction
  else
    match callee.unparen with
    | .member owner name nameSpan _ =>
      let setting := usage.setting context
      let receiver := setting.infer owner
      match setting.instanceOf? receiver, setting.constructorOf? receiver with
      | some component, _ => .method component name (context.unit.site nameSpan)
      | none, some component => .static component name (context.unit.site nameSpan)
      | none, none => .plain
    | _ => .plain

/-- Checks a call of a method or a static. -/
def checkCall (context : UsageContext) (usage : Usage) (kind : CallKind) (args : List Item) :
    Usage :=
  match kind with
  | .method component name place =>
    usage.report (callProblems component name place (usage.foundArguments context args)
      (usage.newState context args))
  | .static component name place =>
    usage.report (staticCallProblems component name place (usage.foundArguments context args))
  | _ => usage

/-- Whether an expression calls a factory of components. -/
def isClassFactoryCall (context : UsageContext) (e : Expr) : Bool :=
  match e.unparen with
  | .call callee _ _ => callee.qualifiedName?.any context.unit.options.isClassFactory
  | _ => false

/-- The type of a declared variable: the documented one, or that of its value. A variable that is
bound to a component is its constructor. -/
def declaredType (context : UsageContext) (usage : Usage) (documented : Option Ty) (name : String)
    (value : Option Expr) : Ty :=
  let type := match documented, value with
    | some type, _ => type
    | none, some e => (usage.setting context).infer e
    | none, none => .unknown
  if type.isUnknown && value.any (isClassFactoryCall context) &&
      (context.table.component? name).isSome then .constructor name
  else type

/-- Binds declared variables, after all of them have been walked through. Documentation applies to
a declaration of a single variable. -/
def declareAll (context : UsageContext) (usage : Usage) (declarators : List Declarator)
    (span : Span) : Usage :=
  let documented :=
    if declarators.length = 1 then (context.unit.docAt span.start).typeTag.map TypeTag.type
    else none
  declarators.foldl
    (fun usage declarator =>
      match declarator.binding.name? with
      | some name =>
        usage.declare name (usage.declaredType context documented name declarator.init?)
      | none => usage)
    usage

end Usage

mutual
/-- Checks an expression and its parts. -/
def checkExpr (context : UsageContext) : Expr → Usage → Usage
  | .template parts _, usage => checkExprs context parts usage
  | .array items _, usage => checkItems context items usage
  | .object properties _, usage => checkProperties context properties usage
  | .function params body span, usage =>
    (checkStmts context body
      (checkParameters context params (usage.enter context params span))).leave
  | .arrow params _ body _, usage =>
    checkStmts context body (checkParameters context params usage)
  | .member owner property propertySpan _, usage =>
    checkExpr context owner (usage.checkMember context owner property propertySpan)
  | .call callee args span, usage =>
    match usage.callKind context callee with
    | .construction =>
      checkItems context args
        (checkExpr context callee (usage.checkConstruction context args span))
    | .plain => checkItems context args (checkExpr context callee usage)
    | kind =>
      checkItems context args (checkReceiver context callee (usage.checkCall context kind args))
  | .construct callee args _, usage =>
    checkItems context args (checkExpr context callee usage)
  | .unary _ operand _, usage => checkExpr context operand usage
  | .binary _ left right _, usage => checkExpr context right (checkExpr context left usage)
  | .conditional test consequent alternate _, usage =>
    checkExpr context alternate (checkExpr context consequent (checkExpr context test usage))
  | .assign (.member owner _ _ _) value _, usage =>
    checkExpr context value (checkExpr context owner usage)
  | .assign target value _, usage => checkExpr context value (checkExpr context target usage)
  | .paren inner _, usage => checkExpr context inner usage
  | .element tag attributes children _ span, usage =>
    checkChildren context children
      (checkAttributes context attributes (usage.checkTagged context tag attributes children span))
  | .fragment children _, usage => checkChildren context children usage
  | .other _ parts _, usage => checkParts context parts usage
  | _, usage => usage
termination_by structural e => e

/-- Checks the object of a callee that is a member, in parentheses or not. -/
def checkReceiver (context : UsageContext) : Expr → Usage → Usage
  | .paren inner _, usage => checkReceiver context inner usage
  | .member owner _ _ _, usage => checkExpr context owner usage
  | _, usage => usage
termination_by structural e => e

/-- Checks expressions in order. -/
def checkExprs (context : UsageContext) : List Expr → Usage → Usage
  | [], usage => usage
  | e :: rest, usage => checkExprs context rest (checkExpr context e usage)
termination_by structural es => es

/-- Checks an item. -/
def checkItem (context : UsageContext) : Item → Usage → Usage
  | .value e, usage => checkExpr context e usage
  | .spread e _, usage => checkExpr context e usage
  | .hole, usage => usage
termination_by structural item => item

/-- Checks items in order. -/
def checkItems (context : UsageContext) : List Item → Usage → Usage
  | [], usage => usage
  | item :: rest, usage => checkItems context rest (checkItem context item usage)
termination_by structural items => items

/-- Checks a key that is computed. -/
def checkKey (context : UsageContext) : Key → Usage → Usage
  | .named _ _, usage => usage
  | .computed e, usage => checkExpr context e usage
termination_by structural key => key

/-- Checks a property. -/
def checkProperty (context : UsageContext) : Property → Usage → Usage
  | .entry key value _, usage => checkExpr context value (checkKey context key usage)
  | .spread e _, usage => checkExpr context e usage
termination_by structural property => property

/-- Checks properties in order. -/
def checkProperties (context : UsageContext) : List Property → Usage → Usage
  | [], usage => usage
  | property :: rest, usage => checkProperties context rest (checkProperty context property usage)
termination_by structural properties => properties

/-- Checks the expressions inside a binding. -/
def checkBinding (context : UsageContext) : Binding → Usage → Usage
  | .name _ _, usage => usage
  | .pattern parts, usage => checkExprs context parts usage
termination_by structural binding => binding

/-- Checks the expressions inside a parameter. -/
def checkParameter (context : UsageContext) : Parameter → Usage → Usage
  | .plain binding, usage => checkBinding context binding usage
  | .defaulted binding value, usage => checkExpr context value (checkBinding context binding usage)
  | .rest binding, usage => checkBinding context binding usage
termination_by structural parameter => parameter

/-- Checks the expressions inside parameters in order. -/
def checkParameters (context : UsageContext) : List Parameter → Usage → Usage
  | [], usage => usage
  | parameter :: rest, usage => checkParameters context rest (checkParameter context parameter usage)
termination_by structural parameters => parameters

/-- Checks the expressions inside a declarator. -/
def checkDeclarator (context : UsageContext) : Declarator → Usage → Usage
  | .bare binding, usage => checkBinding context binding usage
  | .initialized binding value, usage =>
    checkExpr context value (checkBinding context binding usage)
termination_by structural declarator => declarator

/-- Checks the expressions inside declarators in order. -/
def checkDeclarators (context : UsageContext) : List Declarator → Usage → Usage
  | [], usage => usage
  | declarator :: rest, usage =>
    checkDeclarators context rest (checkDeclarator context declarator usage)
termination_by structural declarators => declarators

/-- Checks the value of an attribute. -/
def checkAttribute (context : UsageContext) : Attribute → Usage → Usage
  | .named _ value _, usage => checkExpr context value usage
  | .foreign value, usage => checkExpr context value usage
  | .spread e, usage => checkExpr context e usage
termination_by structural given => given

/-- Checks the values of attributes in order. -/
def checkAttributes (context : UsageContext) : List Attribute → Usage → Usage
  | [], usage => usage
  | given :: rest, usage => checkAttributes context rest (checkAttribute context given usage)
termination_by structural givens => givens

/-- Checks a child of an element. -/
def checkChild (context : UsageContext) : Child → Usage → Usage
  | .text _ _, usage => usage
  | .value e _, usage => checkExpr context e usage
  | .spread e _, usage => checkExpr context e usage
termination_by structural child => child

/-- Checks the children of an element in order. -/
def checkChildren (context : UsageContext) : List Child → Usage → Usage
  | [], usage => usage
  | child :: rest, usage => checkChildren context rest (checkChild context child usage)
termination_by structural children => children

/-- Checks a statement. Variables are bound after the whole declaration has been checked. -/
def checkStmt (context : UsageContext) : Stmt → Usage → Usage
  | .expression e _, usage => checkExpr context e usage
  | .variables _ declarators span, usage =>
    (checkDeclarators context declarators usage).declareAll context declarators span
  | .returns value, usage => checkExpr context value usage
  | .other parts, usage => checkParts context parts usage
termination_by structural s => s

/-- Checks statements in order. -/
def checkStmts (context : UsageContext) : List Stmt → Usage → Usage
  | [], usage => usage
  | s :: rest, usage => checkStmts context rest (checkStmt context s usage)
termination_by structural statements => statements

/-- Checks a part of a construct without a form of its own. -/
def checkPart (context : UsageContext) : Part → Usage → Usage
  | .expr e, usage => checkExpr context e usage
  | .stmt s, usage => checkStmt context s usage
termination_by structural part => part

/-- Checks the parts of a construct without a form of its own. -/
def checkParts (context : UsageContext) : List Part → Usage → Usage
  | [], usage => usage
  | part :: rest, usage => checkParts context rest (checkPart context part usage)
termination_by structural parts => parts
end

/-- What a check found, and the types of the elements it met, in order. -/
structure UsageReport where
  result : CheckResult
  attachments : List (Site × Ty)
deriving Inhabited

/-- The methods of a call that stand in a file. -/
def methodPlacesOf (file : Nat) (call : FactoryCall) : List MethodPlace :=
  call.spec.members.values.filterMap fun member =>
    match member.kind with
    | .method _ _ site =>
      if site.file = file then
        some { start := site.start, component := call.name, method := member.name }
      else none
    | _ => none

/-- The methods of published components that stand in a file. -/
def methodPlaces (registry : Registry) (table : TypeTable) (file : Nat) : List MethodPlace :=
  (registry.components.filter fun call => (table.component? call.name).isSome).flatMap
    (methodPlacesOf file)

/-- Checks every use of a component in one program. -/
def checkProgram (options : Options) (registry : Registry) (table : TypeTable) (file : Nat)
    (source : String) (program : Program) : UsageReport :=
  let unit : SourceUnit :=
    { file := file, text := source.toList, comments := program.comments.toArray,
      options := options }
  let context : UsageContext :=
    { unit := unit, table := table, methods := methodPlaces registry table file }
  let usage := checkStmts context program.body Usage.start
  { result := CheckResult.empty.extend usage.found.reverse,
    attachments := usage.attached.reverse }

end ClassFactory
