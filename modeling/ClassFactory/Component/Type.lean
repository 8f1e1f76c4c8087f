/-
Module: ClassFactory.Component.Type
Purpose: The types of components and mixins as their users see them, and the table in which they are
  published under their names.
Main exports: MethodSource, MethodType, PropField, Props, StaticType, HookLink, ComponentType,
  MixinType, NominalType, TypeTable
-/
import ClassFactory.Factory.Call

namespace ClassFactory

/-- Where a method of an instance comes from. -/
inductive MethodSource where
  /-- Defined by the component or one of its mixins. -/
  | defined (origin : Nat)
  /-- Declared by a mixin and defined nowhere. -/
  | declared (origin : Nat)
  /-- Supplied by the library. -/
  | builtin
deriving Repr, Inhabited, DecidableEq

/-- A method of an instance. Without a signature it takes and returns anything. -/
structure MethodType where
  name : String
  signature : Option Signature
  source : MethodSource
  site : Option Site
  isPrivate : Bool
deriving Inhabited

/-- A prop of a component. -/
structure PropField where
  type : Ty
  required : Bool
  /-- Whether `getDefaultProps` supplies it. -/
  hasDefault : Bool
  site : Option Site
deriving Inhabited

/-- Whether the prop must be passed when an element is constructed. -/
def PropField.mustBePassed (field : PropField) : Bool :=
  field.required && !field.hasDefault

/-- The props of a component. Where none are declared, any are accepted. -/
structure Props where
  fields : Keyed PropField
  isDeclared : Bool
deriving Inhabited

/-- Props that every element accepts. -/
def reservedProps : List String := ["key", "ref", "children"]

namespace Props

/-- No props, none declared. -/
def empty : Props := { fields := .empty, isDeclared := false }

/-- The prop of that name. -/
def field? (props : Props) (name : String) : Option PropField :=
  props.fields.get? name

/-- Whether an element may be given the prop. -/
def accepts (props : Props) (name : String) : Bool :=
  !props.isDeclared || reservedProps.contains name || props.fields.contains name

/-- The prop that holds the children of an element. -/
def children? (props : Props) : Option PropField :=
  props.field? "children"

/-- The props as the fields of a record. -/
def toFields (props : Props) : List Field :=
  props.fields.entries.map fun (name, field) => .mk name field.type (!field.required)

end Props

/-- A static of a component. Those that every component has come from no call. -/
structure StaticType where
  name : String
  type : Ty
  origin : Option Nat
  site : Option Site
deriving Inhabited

/-- A definition in the chain of a hook. -/
structure HookLink where
  definition : DefinitionId
  origin : Nat
  site : Site
deriving Repr, Inhabited, DecidableEq

/-- The type of a component. -/
structure ComponentType where
  id : Nat
  name : String
  site : Site
  methods : Keyed MethodType
  /-- The members that are plain values. -/
  fields : Keyed Ty
  props : Props
  /-- The fields of the state; `none` if they are not known. -/
  state : Option (List Field)
  statics : Keyed StaticType
  /-- The hooks with their definitions in call order; of `render`, the one that counts. -/
  hooks : List (Hook × List HookLink)
  pureRender : Bool
deriving Inhabited

namespace ComponentType

/-- The method of that name. -/
def method? (component : ComponentType) (name : String) : Option MethodType :=
  component.methods.get? name

/-- The static of that name. -/
def static? (component : ComponentType) (name : String) : Option StaticType :=
  component.statics.get? name

/-- Whether an instance has the member. -/
def hasMember (component : ComponentType) (name : String) : Bool :=
  component.methods.contains name || component.fields.contains name || name = "props" ||
    name = "state"

/-- The definitions of a hook in call order. -/
def hookChain (component : ComponentType) (hook : Hook) : List HookLink :=
  ((component.hooks.find? (·.1 = hook)).map Prod.snd).getD []

/-- The type of the instances. -/
def instanceType (component : ComponentType) : Ty := .named component.name

/-- The type of the elements. -/
def elementType (component : ComponentType) : Ty := .element (some component.name)

end ComponentType

/-- A dotted name as an identifier. -/
def identifierOf (name : String) : String := Text.replaceChar '.' '_' name

/-- The name of the interface that declares a type. -/
def interfaceOf (name : String) : String := identifierOf name ++ "Interface"

/-- The type of a mixin. -/
structure MixinType where
  id : Nat
  name : String
  site : Site
  methods : Keyed (Option Signature)
  statics : Keyed Ty
deriving Inhabited

/-- A type known by its name. -/
inductive NominalType where
  | component (type : ComponentType)
  | mixin (type : MixinType)
deriving Inhabited

namespace NominalType

/-- The name of a type. -/
def name : NominalType → String
  | .component type => type.name
  | .mixin type => type.name

/-- Where a type is declared. -/
def site : NominalType → Site
  | .component type => type.site
  | .mixin type => type.site

/-- The type, if it is that of a component. -/
def component? : NominalType → Option ComponentType
  | .component type => some type
  | .mixin _ => none

end NominalType

/-- The types of a compilation by name, and the types attached to places of the sources. -/
structure TypeTable where
  types : Keyed NominalType
  /-- The attached types, the latest first. -/
  attachments : List (Site × Ty)
deriving Inhabited

namespace TypeTable

/-- A table without types. -/
def empty : TypeTable := { types := .empty, attachments := [] }

/-- Publishes a type under its name; refused if the name is taken. -/
def register (table : TypeTable) (type : NominalType) : TypeTable × Bool :=
  if table.types.contains type.name then (table, false)
  else ({ table with types := table.types.insert type.name type }, true)

/-- The type of that name. -/
def lookup? (table : TypeTable) (name : String) : Option NominalType :=
  table.types.get? name

/-- The component of that name. -/
def component? (table : TypeTable) (name : String) : Option ComponentType :=
  (table.lookup? name).bind NominalType.component?

/-- The components in order of their registration. -/
def components (table : TypeTable) : List ComponentType :=
  table.types.values.filterMap NominalType.component?

/-- Attaches a type to a place; it takes the place of an earlier one there. -/
def attach (table : TypeTable) (site : Site) (type : Ty) : TypeTable :=
  { table with attachments := (site, type) :: table.attachments }

/-- The type attached to a place. -/
def attached? (table : TypeTable) (site : Site) : Option Ty :=
  (table.attachments.find? (·.1 = site)).map Prod.snd

end TypeTable

end ClassFactory
