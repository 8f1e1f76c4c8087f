/-
Module: ClassFactory.Component.Synthesis
Purpose: Making the type of every component and mixin from its merged surface.
Main exports: componentType, mixinType, Synthesis, synthesize
-/
import ClassFactory.Component.Type
import ClassFactory.Mixins.Resolution

namespace ClassFactory

/-- The statics that every component has. -/
def builtinStatics : List (String × Ty) :=
  [("displayName", .string), ("propTypes", .anyObject), ("defaultProps", .anyObject)]

/-- A static that every component has. -/
def builtinStatic (name : String) (type : Ty) : StaticType :=
  { name := name, type := type, origin := none, site := none }

/-- The statics of a component: those of its surface, then those that every component has. -/
def componentStatics (surface : Surface) : Keyed StaticType :=
  let own : Keyed StaticType :=
    { entries := surface.statics.entries.map fun (name, entry) =>
        (name,
          { name := entry.name, type := entry.type, origin := some entry.origin,
            site := some entry.site }) }
  builtinStatics.foldl
    (fun statics (name, type) => statics.insertNew name (builtinStatic name type)) own

/-- The signature of a method: the first one its definitions declare, or the one that every component
must give it. -/
def methodSignature (name : String) (member : SurfaceMember) : Option Signature :=
  match member.signature? with
  | some signature => some signature
  | none => standardSignature? name

/-- Where a method comes from. -/
def methodSource (member : SurfaceMember) (primary : MemberDefinition) : MethodSource :=
  if member.definitions.all MemberDefinition.isDeclared then .declared primary.origin
  else .defined primary.origin

/-- A member of a surface as a method, unless it is a plain value. -/
def memberMethod? (name : String) (member : SurfaceMember) : Option MethodType :=
  if member.isValue then none
  else
    member.primary?.map fun primary =>
      { name := name, signature := methodSignature name member,
        source := methodSource member primary, site := some primary.site,
        isPrivate := primary.isPrivate }

/-- A member of a surface as a field, if it is a plain value. -/
def memberField? (member : SurfaceMember) : Option Ty :=
  if member.isValue then member.valueType? else none

/-- A method that the library supplies. -/
def builtinMethod (name : String) (signature : Option Signature) : MethodType :=
  { name := name, signature := signature, source := .builtin, site := none, isPrivate := false }

/-- The fields of the instances. -/
def instanceFields (surface : Surface) : Keyed Ty :=
  { entries := surface.members.entries.filterMap fun (name, member) =>
      (memberField? member).map fun type => (name, type) }

/-- The methods of the instances: those of the surface, then those that the library supplies. -/
def componentMethods (surface : Surface) : Keyed MethodType :=
  let own : Keyed MethodType :=
    { entries := surface.members.entries.filterMap fun (name, member) =>
        (memberMethod? name member).map fun method => (name, method) }
  let supplied := instanceMethods.foldl
    (fun methods (name, _) =>
      methods.insertNew name (builtinMethod name (instanceSignature? name)))
    own
  let update := "shouldComponentUpdate"
  if surface.pureRender then
    supplied.insertNew update (builtinMethod update (standardSignature? update))
  else supplied

/-- Whether some `getDefaultProps` of the component supplies the prop. -/
def suppliesDefault (registry : Registry) (call : FactoryCall) (surface : Surface)
    (prop : String) : Bool :=
  let origins := (surface.hookChain .getDefaultProps).map MemberDefinition.origin ++ [call.id]
  origins.any fun origin => (registry.get? origin).any fun c => c.spec.hasDefault prop

/-- The type of a declared prop and whether it is required; `none` if its validator is not
understood. -/
def propType? (prop : PropDef) : Option (Ty × Bool) :=
  match prop.documented with
  | some type => some (type, !type.admitsNullish)
  | none =>
    if prop.validator.isResolved then some (prop.validator.toType, prop.validator.isRequired)
    else none

/-- The warning for a prop whose validator is not understood. -/
def propWarning? (call : FactoryCall) (prop : PropDef) : Option Diagnostic :=
  match propType? prop with
  | some _ => none
  | none =>
    some (Diagnostic.warning .unknownPropType
      ("cannot determine the type of prop " ++ quoted prop.name ++ " of " ++ quoted call.name ++
        "; it is left unchecked")
      prop.site)

/-- A declared prop as users of the component see it. -/
def propField (registry : Registry) (call : FactoryCall) (surface : Surface) (prop : PropDef) :
    PropField :=
  let (type, required) := (propType? prop).getD (.unknown, false)
  { type := type, required := required,
    hasDefault := suppliesDefault registry call surface prop.name, site := some prop.site }

/-- The declared props of a component, if they are to be checked. -/
def checkedProps? (options : Options) (call : FactoryCall) : Option (Keyed PropDef) :=
  if options.checkPropTypes then call.spec.propTypes else none

/-- The prop that holds the children where it is not declared. -/
def childrenField : PropField :=
  { type := .renderable, required := false, hasDefault := false, site := none }

/-- The props of a component. -/
def componentProps (registry : Registry) (options : Options) (call : FactoryCall)
    (surface : Surface) : Props :=
  match checkedProps? options call with
  | some declared =>
    let fields : Keyed PropField :=
      { entries := declared.entries.map fun (name, prop) =>
          (name, propField registry call surface prop) }
    { fields := fields.insertNew "children" childrenField, isDeclared := true }
  | none => { fields := Keyed.empty.insertNew "children" childrenField, isDeclared := false }

/-- The warnings for the declared props of a component. -/
def propWarnings (options : Options) (call : FactoryCall) : List Diagnostic :=
  match checkedProps? options call with
  | some declared => declared.values.filterMap (propWarning? call)
  | none => []

/-- What the specification of a call says about the state. -/
def Registry.stateHint? (registry : Registry) (id : Nat) : Option StateHint :=
  (registry.get? id).bind fun call => call.spec.stateHint

/-- The fields of the state that a definition of `getInitialState` returns, if they are known. -/
def stateFields? (registry : Registry) (origin : Nat) : Option (List Field) :=
  match registry.stateHint? origin with
  | some hint =>
    match hint.type.nonNullish with
    | .record fields => some fields
    | _ => none
  | none => none

/-- The fields of the state: those that the definitions of `getInitialState` return, the later ones
over the earlier ones; `none` if there is no definition, or one of them returns something
unknown. -/
def componentState (registry : Registry) (surface : Surface) : Option (List Field) :=
  match surface.hookChain .getInitialState with
  | [] => none
  | chain =>
    (chain.mapM fun definition => stateFields? registry definition.origin).map fun records =>
      records.foldl Fields.extend []

/-- Whether an annotated state type is one that the state cannot have. -/
def isUnexpectedState (type : Ty) : Bool :=
  match type, type.nonNullish with
  | .null, _ => false
  | _, .record _ => false
  | _, .unknown => false
  | _, _ => true

/-- The warning for an own `getInitialState` that is documented to return no record. -/
def stateWarnings (registry : Registry) (call : FactoryCall) (surface : Surface) :
    List Diagnostic :=
  (surface.hookChain .getInitialState).filterMap fun definition =>
    match registry.stateHint? definition.origin with
    | some hint =>
      if hint.isAnnotated && definition.origin = call.id && isUnexpectedState hint.type then
        some (Diagnostic.warning .unexpectedStateType
          ("getInitialState of " ++ quoted call.name ++ " should return a record type, found " ++
            hint.type.text)
          hint.site)
      else none
    | none => none

/-- A definition as a link of a hook's chain. -/
def hookLink (definition : MemberDefinition) : HookLink :=
  { definition := definition.definition, origin := definition.origin, site := definition.site }

/-- The definitions of a hook that run, in call order. Of several `render` only one runs: the
component's own, or else the first. -/
def hookLinks (call : FactoryCall) (surface : Surface) (hook : Hook) : List HookLink :=
  let chain := surface.hookChain hook
  if hook = .render then
    match chain.find? fun d => d.origin = call.id with
    | some own => [hookLink own]
    | none => (chain.take 1).map hookLink
  else chain.map hookLink

/-- The hooks of a component that have a definition. -/
def componentHooks (call : FactoryCall) (surface : Surface) : List (Hook × List HookLink) :=
  Hook.all.filterMap fun hook =>
    match hookLinks call surface hook with
    | [] => none
    | links => some (hook, links)

/-- The type of a component. -/
def componentType (registry : Registry) (options : Options) (call : FactoryCall)
    (surface : Surface) : ComponentType :=
  { id := call.id, name := call.name, site := call.declSite,
    methods := componentMethods surface, fields := instanceFields surface,
    props := componentProps registry options call surface,
    state := componentState registry surface, statics := componentStatics surface,
    hooks := componentHooks call surface, pureRender := surface.pureRender }

/-- The type of a mixin. -/
def mixinType (call : FactoryCall) (surface : Surface) : MixinType :=
  { id := call.id, name := call.name, site := call.declSite,
    methods :=
      { entries := surface.members.entries.filterMap fun (name, member) =>
          if member.isValue then none else some (name, methodSignature name member) },
    statics := { entries := surface.statics.entries.map fun (name, entry) => (name, entry.type) } }

/-- The published types, the calls they belong to, and what was found on the way. -/
structure Synthesis where
  table : TypeTable
  components : List Nat
  mixins : List Nat
  diagnostics : List Diagnostic
deriving Inhabited

namespace Synthesis

/-- Nothing published yet. -/
def empty : Synthesis := { table := .empty, components := [], mixins := [], diagnostics := [] }

/-- Publishes a mixin that resolved. -/
def addMixin (resolved : Resolved) (synthesis : Synthesis) (call : FactoryCall) : Synthesis :=
  match resolved.surface? call.id with
  | some surface =>
    match synthesis.table.register (.mixin (mixinType call surface)) with
    | (table, true) => { synthesis with table := table, mixins := synthesis.mixins ++ [call.id] }
    | (_, false) => synthesis
  | none => synthesis

/-- Publishes a component that resolved, and attaches its constructor to its call. -/
def addComponent (registry : Registry) (options : Options) (resolved : Resolved)
    (synthesis : Synthesis) (call : FactoryCall) : Synthesis :=
  match resolved.surface? call.id with
  | some surface =>
    let found := propWarnings options call ++ stateWarnings registry call surface
    let synthesis := { synthesis with diagnostics := synthesis.diagnostics ++ found }
    match synthesis.table.register (.component (componentType registry options call surface)) with
    | (table, true) =>
      { synthesis with
        table := table.attach call.site (.constructor call.name)
        components := synthesis.components ++ [call.id] }
    | (_, false) => synthesis
  | none => synthesis

end Synthesis

/-- Publishes all mixins and then all components, in order of declaration. -/
def synthesize (registry : Registry) (options : Options) (resolved : Resolved) : Synthesis :=
  registry.components.foldl (Synthesis.addComponent registry options resolved)
    (registry.mixins.foldl (Synthesis.addMixin resolved) Synthesis.empty)

end ClassFactory
