/-
Module: ClassFactory.Validator
Purpose: Prop validators as they are written in specifications, such as
  `PropTypes.arrayOf(PropTypes.number).isRequired`, and the types they admit.
Main exports: ScalarValidator, Validator, Validator.ofExpr, Validator.isRequired,
  Validator.isResolved, Validator.toType
-/
import ClassFactory.Keyed
import ClassFactory.Options
import ClassFactory.Script.Tree
import ClassFactory.Types.Union

namespace ClassFactory

open Script (Expr Item Property Key)

/-- A validator without parts. -/
inductive ScalarValidator where
  | array
  | bool
  | func
  | number
  | object
  | string
  | symbol
  | any
  | node
  | element
deriving Repr, Inhabited, DecidableEq

namespace ScalarValidator

/-- Every validator without parts. -/
def all : List ScalarValidator :=
  [.array, .bool, .func, .number, .object, .string, .symbol, .any, .node, .element]

/-- The name of a validator in its namespace. -/
def name : ScalarValidator → String
  | .array => "array"
  | .bool => "bool"
  | .func => "func"
  | .number => "number"
  | .object => "object"
  | .string => "string"
  | .symbol => "symbol"
  | .any => "any"
  | .node => "node"
  | .element => "element"

/-- The validator of that name. -/
def ofName? (name : String) : Option ScalarValidator :=
  all.find? (·.name = name)

/-- The values a validator admits. -/
def toType : ScalarValidator → Ty
  | .array => .array .unknown
  | .bool => .boolean
  | .func => .anyFunction
  | .number => .number
  | .object => .anyObject
  | .string => .string
  | .symbol => .primitive .symbol
  | .any => Ty.join [.number, .string, .boolean, .anyObject]
  | .node => .renderable
  | .element => .element none

theorem ofName?_name (kind : ScalarValidator) : ofName? kind.name = some kind := by
  cases kind <;> rfl

end ScalarValidator

mutual
/-- A prop validator. -/
inductive Validator where
  | scalar (kind : ScalarValidator)
  | arrayOf (item : Validator)
  | objectOf (value : Validator)
  | instanceOf (name : String)
  | oneOf (values : List Literal)
  | oneOfType (alternatives : List Validator)
  | shape (fields : List ShapeField)
  /-- A validator whose prop must be passed. -/
  | required (inner : Validator)
  /-- An expression that is no known validator. -/
  | unresolved

/-- A named field of a shape. -/
inductive ShapeField where
  | mk (name : String) (validator : Validator)
end

instance : Inhabited Validator := ⟨.unresolved⟩

/-- What builds a validator from an argument. -/
inductive ValidatorBuilder where
  | arrayOf
  | objectOf
  | instanceOf
  | oneOf
  | oneOfType
  | shape
deriving Repr, DecidableEq

/-- The builder of that name. -/
def ValidatorBuilder.ofName? : String → Option ValidatorBuilder
  | "arrayOf" => some .arrayOf
  | "objectOf" => some .objectOf
  | "instanceOf" => some .instanceOf
  | "oneOf" => some .oneOf
  | "oneOfType" => some .oneOfType
  | "shape" => some .shape
  | _ => none

/-- The builder that a callee names in one of the validator namespaces. -/
def ValidatorBuilder.ofCallee? (options : Options) (callee : Expr) : Option ValidatorBuilder := do
  let name ← callee.qualifiedName?
  let (space, builder) ← Text.splitAtLast? '.' name.toList
  if options.isPropTypesNamespace (String.ofList space) then
    ValidatorBuilder.ofName? (String.ofList builder)
  else none

namespace Validator

/-- The validator whose prop must be passed. What is not understood stays so, and a second
requirement adds nothing. -/
def require : Validator → Validator
  | .unresolved => .unresolved
  | .required inner => .required inner
  | validator => .required validator

/-- The validator a member of an expression names, if the expression is a validator namespace. -/
def ofMember (options : Options) (owner : Expr) (property : String) : Validator :=
  if owner.qualifiedName?.any options.isPropTypesNamespace then
    match ScalarValidator.ofName? property with
    | some kind => .scalar kind
    | none => .unresolved
  else .unresolved

/-- A literal of the three kinds that validators list. -/
def literal? (e : Expr) : Option Literal :=
  match e.unparen with
  | .string value _ => some (.string value)
  | .number value _ => some (Literal.ofFloat value)
  | .bool value _ => some (.boolean value)
  | _ => none

/-- The literals an array lists; `none` if it lists anything else. -/
def literals? (e : Expr) : Option (List Literal) :=
  match e.unparen with
  | .array items _ => items.mapM fun item => item.value?.bind literal?
  | _ => none

/-- A shape with these fields, of which a later one of the same name replaces an earlier one. -/
def ofShape (fields : List (String × Validator)) : Validator :=
  .shape ((Keyed.ofList fields).entries.map fun (name, validator) => .mk name validator)

mutual
/-- Reads a validator expression. -/
def ofExpr (options : Options) : Expr → Validator
  | .paren inner _ => ofExpr options inner
  | .member owner property _ _ =>
    if property = "isRequired" then (ofExpr options owner).require
    else ofMember options owner property
  | .call callee args _ =>
    match ValidatorBuilder.ofCallee? options callee with
    | some builder => ofArguments options builder args
    | none => .unresolved
  | _ => .unresolved
termination_by structural e => e

/-- What a builder makes of its first argument; the others do not matter. -/
def ofArguments (options : Options) (builder : ValidatorBuilder) : List Item → Validator
  | [] => .unresolved
  | item :: _ => ofArgument options builder item
termination_by structural items => items

/-- What a builder makes of an argument. -/
def ofArgument (options : Options) (builder : ValidatorBuilder) : Item → Validator
  | .value e =>
    match builder with
    | .arrayOf => .arrayOf (ofExpr options e)
    | .objectOf => .objectOf (ofExpr options e)
    | .instanceOf => (e.qualifiedName?.map Validator.instanceOf).getD .unresolved
    | .oneOf => ((literals? e).map Validator.oneOf).getD .unresolved
    | .oneOfType => ((alternatives? options e).map Validator.oneOfType).getD .unresolved
    | .shape => ((shapeFields? options e).map ofShape).getD .unresolved
  | _ => .unresolved
termination_by structural item => item

/-- The validators an array lists. -/
def alternatives? (options : Options) : Expr → Option (List Validator)
  | .paren inner _ => alternatives? options inner
  | .array items _ => itemValidators? options items
  | _ => none
termination_by structural e => e

/-- The validators of the items; `none` if one is spread or left empty. -/
def itemValidators? (options : Options) : List Item → Option (List Validator)
  | [] => some []
  | item :: rest =>
    match itemValidator? options item, itemValidators? options rest with
    | some validator, some others => some (validator :: others)
    | _, _ => none
termination_by structural items => items

/-- The validator of an item. -/
def itemValidator? (options : Options) : Item → Option Validator
  | .value e => some (ofExpr options e)
  | _ => none
termination_by structural item => item

/-- The fields of an object with their validators. -/
def shapeFields? (options : Options) : Expr → Option (List (String × Validator))
  | .paren inner _ => shapeFields? options inner
  | .object properties _ => propertyValidators? options properties
  | _ => none
termination_by structural e => e

/-- The names and validators of the properties; `none` if one is spread or has no known name. -/
def propertyValidators? (options : Options) : List Property → Option (List (String × Validator))
  | [] => some []
  | property :: rest =>
    match propertyValidator? options property, propertyValidators? options rest with
    | some field, some others => some (field :: others)
    | _, _ => none
termination_by structural properties => properties

/-- The name and the validator of a property. -/
def propertyValidator? (options : Options) : Property → Option (String × Validator)
  | .entry key value _ => key.name?.map fun name => (name, ofExpr options value)
  | .spread _ _ => none
termination_by structural property => property
end

/-- Whether the prop must be passed. -/
def isRequired : Validator → Bool
  | .required _ => true
  | _ => false

/-- Whether the outermost validator is understood. -/
def isResolved : Validator → Bool
  | .required inner => inner.isResolved
  | .unresolved => false
  | _ => true

mutual
/-- The values the validator admits. -/
def toType : Validator → Ty
  | .scalar kind => kind.toType
  | .arrayOf item => .array item.toType
  | .objectOf value => .map value.toType
  | .instanceOf name => .named name
  | .oneOf values => Ty.join (values.map Ty.literal)
  | .oneOfType alternatives => Ty.join (allTypes alternatives)
  | .shape fields => .record (shapeTypes fields)
  | .required inner => inner.toType
  | .unresolved => .unknown
termination_by structural validator => validator

/-- The values each validator admits. -/
def allTypes : List Validator → List Ty
  | [] => []
  | validator :: rest => validator.toType :: allTypes rest
termination_by structural validators => validators

/-- A field of a shape as a field of a record, which may be absent unless it is required. -/
def fieldType : ShapeField → Field
  | .mk name validator => .mk name validator.toType (!validator.isRequired)
termination_by structural field => field

/-- The fields of a shape as fields of a record. -/
def shapeTypes : List ShapeField → List Field
  | [] => []
  | field :: rest => fieldType field :: shapeTypes rest
termination_by structural fields => fields
end

end Validator

end ClassFactory
