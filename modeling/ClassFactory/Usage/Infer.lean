/-
Module: ClassFactory.Usage.Infer
Purpose: The types of expressions where components are used. Inference is shallow on purpose:
  literals, arrays and objects, elements, variables in scope, and the members of known types.
  Everything else is unconstrained.
Main exports: Scope, Setting, Setting.infer, Setting.instanceOf?, Setting.constructorOf?,
  Setting.elementOf
-/
import ClassFactory.Component.Type
import ClassFactory.Script.Tree
import ClassFactory.Types.Union

namespace ClassFactory

open Script (Expr Item Property Key Tag UnaryOp BinaryOp)

/-- The variables of a function with their types; a later one of the same name comes first. -/
abbrev Scope := List (String × Ty)

/-- What is known around an expression. -/
structure Setting where
  table : TypeTable
  options : Options
  /-- The scopes around the expression, the innermost first. -/
  scopes : List Scope
  /-- The component that `this` is an instance of. -/
  self : Option ComponentType

/-- Whether a type is that of strings or of one string. -/
def Ty.isStringLike : Ty → Bool
  | .primitive kind => kind = .string
  | .literal value => value.primitive = .string
  | _ => false

/-- Whether a type is that of numbers or of one number. -/
def Ty.isNumberLike : Ty → Bool
  | .primitive kind => kind = .number
  | .literal value => value.primitive = .number
  | _ => false

/-- The type of an addition: strings are joined, numbers are added. -/
def sumType (left right : Ty) : Ty :=
  if left.isStringLike || right.isStringLike then .string
  else if left.isNumberLike && right.isNumberLike then .number
  else .unknown

/-- The type of a member of an instance. -/
def memberOfInstance (component : ComponentType) (property : String) : Ty :=
  if property = "props" && component.props.isDeclared then .record component.props.toFields
  else if property = "state" then (component.state.map Ty.record).getD .unknown
  else
    match component.fields.get? property with
    | some type => type
    | none =>
      (((component.method? property).bind MethodType.signature).map Signature.toType).getD .unknown

/-- The type of a static of a component. -/
def typeOfStatic (component : ComponentType) (property : String) : Ty :=
  ((component.static? property).map StaticType.type).getD .unknown

/-- The type of a member of a value that is no component: a field of a record, or a length. -/
def memberOfValue (object : Ty) (property : String) : Ty :=
  match object.nonNullish with
  | .record fields =>
    match findField property fields with
    | some field => if field.optional then field.type.orUndefined else field.type
    | none => .unknown
  | .array _ => if property = "length" then .number else .unknown
  | value => if property = "length" && value.isStringLike then .number else .unknown

/-- The element that a component makes, or one of no known component. -/
def elementMadeBy : Ty → Ty
  | .constructor name => .element (some name)
  | _ => .element none

/-- The instance that mounting an element gives. -/
def mountedFrom : Ty → Ty
  | .element (some name) => .named name
  | _ => .unknown

/-- The negated literal of a number. -/
def negatedType (operand : Expr) : Ty :=
  match operand.unparen with
  | .number value _ => .literal (Literal.ofFloat (-value))
  | _ => .number

/-- The type of an expression with an operator in front. -/
def unaryType (op : UnaryOp) (operand : Expr) : Ty :=
  match op with
  | .negate => negatedType operand
  | .plus => .number
  | .bitNot => .number
  | .not => .boolean
  | .delete => .boolean
  | .typeof => .string
  | .void => .undefined

/-- The type of an operation on two values. -/
def binaryType (op : BinaryOp) (left right : Ty) : Ty :=
  match op with
  | .add => sumType left right
  | .compare => .boolean
  | .arithmetic => .number

namespace Setting

/-- The component that a type is an instance of. -/
def instanceOf? (setting : Setting) (type : Ty) : Option ComponentType :=
  match type.nonNullish with
  | .named name => setting.table.component? name
  | _ => none

/-- The component that a type is the constructor of. -/
def constructorOf? (setting : Setting) (type : Ty) : Option ComponentType :=
  match type with
  | .constructor name => setting.table.component? name
  | _ => none

/-- Whether a component has the name. -/
def isComponent (setting : Setting) (name : String) : Bool :=
  (setting.table.component? name).isSome

/-- The type of a variable: that of its innermost binding, or the constructor of its name. -/
def variableType (setting : Setting) (name : String) : Ty :=
  if name = "undefined" then .undefined
  else
    match setting.scopes.findSome? fun scope => scope.lookup name with
    | some type => type
    | none => if setting.isComponent name then .constructor name else .unknown

/-- The type of a member of a value. -/
def memberType (setting : Setting) (object : Ty) (property : String) : Ty :=
  match setting.instanceOf? object with
  | some component => memberOfInstance component property
  | none =>
    match setting.constructorOf? object with
    | some component => typeOfStatic component property
    | none => memberOfValue object property

/-- What a method of the receiver returns. -/
def returnType (setting : Setting) (receiver : Ty) (property : String) : Ty :=
  match setting.instanceOf? receiver with
  | some component =>
    (((component.method? property).bind MethodType.signature).map Signature.returns).getD .unknown
  | none =>
    match setting.constructorOf? receiver with
    | some component =>
      (((component.static? property).bind fun s => s.type.signature?).map
        Signature.returns).getD .unknown
    | none => .unknown

/-- The type of an element with this tag. -/
def taggedElement (setting : Setting) (tag : Tag) : Ty :=
  .element (tag.name?.filter setting.isComponent)

mutual
/-- The type of an expression. -/
def infer (setting : Setting) : Expr → Ty
  | .string value _ => .literal (.string value)
  | .number value _ => .literal (Literal.ofFloat value)
  | .bool value _ => .literal (.boolean value)
  | .null _ => .null
  | .template _ _ => .string
  | .regex _ => .named "RegExp"
  | .paren inner _ => setting.infer inner
  | .ident name _ => setting.variableType name
  | .this _ => (setting.self.map ComponentType.instanceType).getD .unknown
  | .member owner property _ _ =>
    match owner.qualifiedName?.map fun name => name ++ "." ++ property with
    | some name =>
      if setting.isComponent name then .constructor name
      else setting.memberType (setting.infer owner) property
    | none => setting.memberType (setting.infer owner) property
  | .array items _ =>
    match setting.inferItems items with
    | some types => .array (Ty.join types)
    | none => .array .unknown
  | .object properties _ =>
    match setting.inferProperties properties with
    | some fields => .record (Fields.ofList fields)
    | none => .anyObject
  | .function _ _ _ => .anyFunction
  | .arrow _ _ _ _ => .anyFunction
  | .unary op operand _ => unaryType op operand
  | .binary op left right _ => binaryType op (setting.infer left) (setting.infer right)
  | .conditional _ consequent alternate _ =>
    Ty.join [setting.infer consequent, setting.infer alternate]
  | .construct callee _ _ => (callee.qualifiedName?.map Ty.named).getD .unknown
  | .call callee args _ =>
    match callee.qualifiedName? with
    | some name =>
      if setting.options.isElementFactory name then
        ((setting.inferFirst args).map elementMadeBy).getD .unknown
      else if setting.options.isRenderFunction name then
        ((setting.inferFirst args).map mountedFrom).getD .unknown
      else setting.inferCall callee
    | none => setting.inferCall callee
  | .element tag _ _ _ _ => setting.taggedElement tag
  | .fragment _ _ => .element none
  | _ => .unknown
termination_by structural e => e

/-- What a call of a method gives. -/
def inferCall (setting : Setting) : Expr → Ty
  | .paren inner _ => setting.inferCall inner
  | .member owner property _ _ => setting.returnType (setting.infer owner) property
  | _ => .unknown
termination_by structural e => e

/-- The type of the first item, unless it is spread or left empty. -/
def inferFirst (setting : Setting) : List Item → Option Ty
  | [] => none
  | item :: _ => setting.inferItem item
termination_by structural items => items

/-- The type of an item, unless it is spread or left empty. -/
def inferItem (setting : Setting) : Item → Option Ty
  | .value e => some (setting.infer e)
  | _ => none
termination_by structural item => item

/-- The types of items, unless one is spread or left empty. -/
def inferItems (setting : Setting) : List Item → Option (List Ty)
  | [] => some []
  | item :: rest =>
    match setting.inferItem item, setting.inferItems rest with
    | some type, some others => some (type :: others)
    | _, _ => none
termination_by structural items => items

/-- A property as a field, unless it is spread or its key is not known. -/
def inferProperty (setting : Setting) : Property → Option Field
  | .entry key value _ => key.name?.map fun name => .mk name (setting.infer value) false
  | .spread _ _ => none
termination_by structural property => property

/-- Properties as fields, unless one is spread or its key is not known. -/
def inferProperties (setting : Setting) : List Property → Option (List Field)
  | [] => some []
  | property :: rest =>
    match setting.inferProperty property, setting.inferProperties rest with
    | some field, some others => some (field :: others)
    | _, _ => none
termination_by structural properties => properties
end

/-- The element that the element factory makes of a tag. -/
def elementOf (setting : Setting) (tag : Expr) : Ty :=
  elementMadeBy (setting.infer tag)

end Setting

end ClassFactory
