/-
Module: ClassFactory.Factory.Collect
Purpose: Finding the factory calls of a program. A call bound to a name is recorded with its
  specification; one that cannot be described from its syntax is left out without a finding.
Main exports: SourceUnit, buildSpec, Collection, collectProgram
-/
import ClassFactory.Factory.Registry
import ClassFactory.Factory.Value
import ClassFactory.Script.Nodes

namespace ClassFactory

open Script (Expr Item Property Key Stmt Declarator Binding Program Node Parameter)

/-- A source with what is needed to read its specifications. -/
structure SourceUnit where
  file : Nat
  text : List Char
  comments : Array Span
  options : Options

namespace SourceUnit

/-- The documentation in front of a place of the source. -/
def docAt (unit : SourceUnit) (offset : Nat) : DocBlock :=
  docBlockAt unit.text unit.comments offset

/-- A range of the source as a site of the compilation. -/
def site (unit : SourceUnit) (span : Span) : Site :=
  span.inFile unit.file

/-- What the call of a callee creates. -/
def factoryKind? (unit : SourceUnit) (callee : Expr) : Option FactoryKind :=
  match callee.qualifiedName? with
  | some name =>
    if unit.options.isClassFactory name then some .component
    else if unit.options.isMixinFactory name then some .mixin
    else none
  | none => none

end SourceUnit

/-- The signature that a documentation block gives a function. -/
def documentedSignature (doc : DocBlock) (params : List Parameter) : Option Signature :=
  doc.signatureFor (Script.parameterNames params) (Script.hasRest params)

/-- The function type that a documentation block gives a function. -/
def documentedFunction (doc : DocBlock) (params : List Parameter) : Ty :=
  ((documentedSignature doc params).map Signature.toType).getD .anyFunction

/-- The type of a static: documented, or as far as its value shows it. -/
def staticType (doc : DocBlock) (value : Expr) : Ty :=
  match doc.typeTag with
  | some tag => tag.type
  | none =>
    match value.unparen with
    | .function params _ _ => documentedFunction doc params
    | .arrow params _ _ _ => documentedFunction doc params
    | e => e.shownType

/-- The kind of a member with this value, which has no parentheses around it. -/
def memberKind (unit : SourceUnit) (doc : DocBlock) (value : Expr) : MemberKind :=
  match value with
  | .function params _ span =>
    .method (documentedSignature doc params) params.length (unit.site span)
  | .arrow params _ _ span =>
    .method (documentedSignature doc params) params.length (unit.site span)
  | e =>
    match doc.typeTag with
    | some tag => .value tag.type
    | none => .value e.shownType

/-- An entry of a `mixins` list, which must be a name. -/
def mixinRef (unit : SourceUnit) (item : Item) : Except OpaqueReason MixinRef :=
  match item.value? with
  | some e =>
    match e.qualifiedName? with
    | some name => .ok { name := name, site := unit.site e.span }
    | none => .error .computedMixinEntry
  | none => .error .computedMixinEntry

/-- Adds the entries of a `mixins` list. -/
def enterMixins (unit : SourceUnit) (spec : FactorySpec) (value : Expr) :
    Except OpaqueReason FactorySpec :=
  match value with
  | .array items _ => do
    let entries ← items.mapM (mixinRef unit)
    return { spec with mixins := spec.mixins ++ entries }
  | _ => .error .computedMixins

/-- Adds one static. -/
def enterStatic (unit : SourceUnit) (owner : Nat) (spec : FactorySpec) (property : Property) :
    Except OpaqueReason FactorySpec :=
  match property with
  | .entry key value span =>
    match key.name? with
    | some name =>
      .ok (spec.addStatic owner name (unit.site span)
        (staticType (unit.docAt span.start) value))
    | none => .error .computedStatics
  | .spread _ _ => .error .computedStatics

/-- Adds the entries of a `statics` object. -/
def enterStatics (unit : SourceUnit) (owner : Nat) (spec : FactorySpec) (value : Expr) :
    Except OpaqueReason FactorySpec :=
  match value with
  | .object properties _ => properties.foldlM (enterStatic unit owner) spec
  | _ => .error .computedStatics

/-- One declared prop. -/
def propDef? (unit : SourceUnit) : Property → Option (String × PropDef)
  | .entry key value span =>
    key.name?.map fun name =>
      (name,
        { name := name, site := unit.site span,
          validator := Validator.ofExpr unit.options value,
          documented := (unit.docAt span.start).typeTag.map TypeTag.type })
  | .spread _ _ => none

/-- The props that `propTypes` declares; `none` if it is not an object whose keys are all known. -/
def declaredProps? (unit : SourceUnit) (value : Expr) : Option (Keyed PropDef) :=
  match value with
  | .object properties _ => (properties.mapM (propDef? unit)).map Keyed.ofList
  | _ => none

/-- One field of the state, by the syntax of its first value. -/
def stateField? : Property → Option Field
  | .entry key value _ => key.name?.map fun name => .mk name value.shownType false
  | .spread _ _ => none

/-- What `getInitialState` says about the state. -/
def stateHint? (unit : SourceUnit) (doc : DocBlock) (value : Expr) (span : Span) :
    Option StateHint :=
  match doc.returns with
  | some type => some { type := type, isAnnotated := true, site := unit.site span }
  | none => do
    let properties ← value.returnedObject?
    let fields ← properties.mapM stateField?
    return { type := .record (Fields.ofList fields), isAnnotated := false, site := unit.site span }

/-- The known keys of an object. -/
def knownKeys (properties : List Property) : List String :=
  properties.filterMap fun
    | .entry key _ _ => key.name?
    | .spread _ _ => none

/-- What a member says beyond being there: its default props or its initial state. -/
def enterHints (unit : SourceUnit) (spec : FactorySpec) (name : String) (doc : DocBlock)
    (value : Expr) (span : Span) : FactorySpec :=
  match name with
  | "getDefaultProps" =>
    match value.returnedObject? with
    | some properties => { spec with defaultProps := knownKeys properties }
    | none => spec
  | "getInitialState" => { spec with stateHint := stateHint? unit doc value span }
  | _ => spec

/-- Adds a member. -/
def enterMember (unit : SourceUnit) (owner : Nat) (spec : FactorySpec) (name : String)
    (value : Expr) (span : Span) : FactorySpec :=
  let doc := unit.docAt span.start
  (enterHints unit spec name doc value span).addMember owner name (unit.site span)
    (memberKind unit doc value) doc.isPrivate

/-- Adds what one property of a specification says. A mixin has no props of its own. -/
def enterProperty (unit : SourceUnit) (owner : Nat) (kind : FactoryKind) (spec : FactorySpec)
    (property : Property) : Except OpaqueReason FactorySpec :=
  match property with
  | .spread _ _ => .error .nonLiteralSpec
  | .entry key given span =>
    let value := given.unparen
    match key.name? with
    | none => .error .nonLiteralSpec
    | some "mixins" => enterMixins unit spec value
    | some "statics" => enterStatics unit owner spec value
    | some "propTypes" =>
      match kind with
      | .component => .ok { spec with propTypes := declaredProps? unit value }
      | .mixin => .ok spec
    | some "displayName" =>
      match value with
      | .string text _ => .ok { spec with displayName := some text }
      | _ => .ok spec
    | some name => .ok (enterMember unit owner spec name value span)

/-- Reads the properties of a specification in order. -/
def buildSpec (unit : SourceUnit) (owner : Nat) (kind : FactoryKind)
    (properties : List Property) : Except OpaqueReason FactorySpec :=
  properties.foldlM (enterProperty unit owner kind) FactorySpec.empty

/-- The state of a collection: the calls found so far, and of the current program the places of the
bound calls and the names declared by exports. -/
structure Collection where
  registry : Registry
  boundCalls : List Nat
  exported : List String

/-- A call of a factory. -/
structure FactoryUse where
  kind : FactoryKind
  args : List Item
  site : Site

/-- The finding for a factory call without exactly one argument. -/
def arityError (found : FactoryUse) : Diagnostic :=
  Diagnostic.error .factoryArity
    (found.kind.label ++ " factory expects exactly one specification argument, found " ++
      toString found.args.length)
    found.site

/-- The specification of a factory call with its place. -/
def specification? (args : List Item) : Option (List Property × Span) :=
  match (Script.firstValue? args).map Expr.unparen with
  | some (.object properties span) => some (properties, span)
  | _ => none

namespace Collection

/-- Applies a change to the registry. -/
def update (collection : Collection) (change : Registry → Registry) : Collection :=
  { collection with registry := change collection.registry }

/-- Records a factory call bound to a name. -/
def record (unit : SourceUnit) (collection : Collection) (name : String) (declSpan : Span)
    (found : FactoryUse) : Collection :=
  let collection :=
    if found.args.length = 1 then collection else collection.update (·.report (arityError found))
  let leaveOut (reason : OpaqueReason) : Collection :=
    collection.update (·.recordOpaque
      { name := some name, kind := found.kind, site := found.site, reason := reason })
  match specification? found.args with
  | none => leaveOut .nonLiteralSpec
  | some (properties, span) =>
    let id := collection.registry.nextId
    match buildSpec unit id found.kind properties with
    | .error reason => leaveOut reason
    | .ok spec =>
      let call : FactoryCall :=
        { id := id, kind := found.kind, name := name, site := found.site,
          declSite := unit.site declSpan, specSite := unit.site span,
          exported := collection.exported.contains name, spec := spec }
      collection.update fun registry => (registry.insert call).1

/-- Looks at a value that is bound to a name. -/
def bind (unit : SourceUnit) (collection : Collection) (name : String) (declSpan : Span)
    (value : Expr) : Collection :=
  match value.unparen with
  | .call callee args span =>
    match unit.factoryKind? callee with
    | some kind =>
      let collection := { collection with boundCalls := span.start :: collection.boundCalls }
      collection.record unit name declSpan { kind := kind, args := args, site := unit.site span }
    | none => collection
  | _ => collection

/-- The names that declarators bind, patterns apart. -/
def declaredNames (declarators : List Declarator) : List String :=
  declarators.filterMap fun declarator => declarator.binding.name?

/-- The method declaration that a statement is: a documented `Owner.name;`. -/
def abstractDecl? (unit : SourceUnit) (e : Expr) (span : Span) : Option AbstractDecl :=
  match e with
  | .member owner property _ _ => do
    let name ← owner.qualifiedName?
    let text ← leadingBlock unit.text unit.comments span.start
    return { owner := name, name := property, site := unit.site span,
             doc := DocBlock.ofContent (commentContent text) }
  | _ => none

/-- Looks at a statement. -/
def enterStmt (unit : SourceUnit) (collection : Collection) : Stmt → Collection
  | .variables true declarators _ =>
    { collection with exported := collection.exported ++ declaredNames declarators }
  | .expression e span =>
    match abstractDecl? unit e span with
    | some declaration => collection.update (·.addAbstract declaration)
    | none => collection
  | _ => collection

/-- Looks at an expression: an assignment may bind a call; a call that nothing binds is left
out. -/
def enterExpr (unit : SourceUnit) (collection : Collection) : Expr → Collection
  | .assign (.ident name span) value _ => collection.bind unit name span value
  | .assign (.member owner property _ span) value _ =>
    match owner.qualifiedName? with
    | some name => collection.bind unit (name ++ "." ++ property) span value
    | none => collection
  | .call callee _ span =>
    if collection.boundCalls.contains span.start then collection
    else
      match unit.factoryKind? callee with
      | some kind =>
        collection.update (·.recordOpaque
          { name := none, kind := kind, site := unit.site span, reason := .unbound })
      | none => collection
  | _ => collection

/-- Looks at a node of the program. -/
def enterNode (unit : SourceUnit) (collection : Collection) : Node → Collection
  | .stmt s => collection.enterStmt unit s
  | .declarator (.initialized (.name bound span) value) => collection.bind unit bound span value
  | .expr e => collection.enterExpr unit e
  | _ => collection

end Collection

/-- Records the factory calls of one program, in the order of the source. -/
def collectProgram (options : Options) (file : Nat) (source : String) (program : Program)
    (registry : Registry) : Registry :=
  let unit : SourceUnit :=
    { file := file, text := source.toList, comments := program.comments.toArray,
      options := options }
  let start : Collection := { registry := registry, boundCalls := [], exported := [] }
  (program.nodes.foldl (Collection.enterNode unit) start).registry

end ClassFactory
