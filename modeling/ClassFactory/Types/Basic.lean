/-
Module: ClassFactory.Types.Basic
Purpose: The types that annotations, validators and uses of components are checked with: scalars
  and literals, arrays, maps and records, unions, functions, and types known by name. `Ty.unknown`
  is the gradual type: nothing is checked against it.
Main exports: Primitive, Literal, Ty, Field, Param, Signature, Ty.same
-/
import ClassFactory.Decimal.Text

namespace ClassFactory

/-- The scalar types. -/
inductive Primitive where
  | number
  | string
  | boolean
  | symbol
deriving Repr, Inhabited, DecidableEq

/-- The name of a scalar type. -/
def Primitive.name : Primitive → String
  | .number => "number"
  | .string => "string"
  | .boolean => "boolean"
  | .symbol => "symbol"

/-- A single value as a type. Numbers are known by their plain decimal text, so that `1.0` and
`1` are one type. -/
inductive Literal where
  | string (value : String)
  | number (text : String)
  | boolean (value : Bool)
deriving Repr, Inhabited, DecidableEq

namespace Literal

/-- The literal type of a number. -/
def ofFloat (value : Float) : Literal :=
  .number (Decimal.plainNumber value)

/-- The scalar type a literal belongs to. -/
def primitive : Literal → Primitive
  | .string _ => .string
  | .number _ => .number
  | .boolean _ => .boolean

end Literal

mutual
/-- A type of the checked language. -/
inductive Ty where
  /-- Unconstrained: compatible with everything. -/
  | unknown
  | primitive (kind : Primitive)
  | literal (value : Literal)
  | null
  | undefined
  | array (item : Ty)
  /-- A map from strings to values of one type. -/
  | map (value : Ty)
  /-- An object with named fields, in order of declaration. -/
  | record (fields : List Field)
  | union (members : List Ty)
  | function (params : List Param) (returns : Ty)
  /-- Any function at all. -/
  | anyFunction
  /-- Any object at all. -/
  | anyObject
  /-- A type known by its name, such as the instances of a component. -/
  | named (name : String)
  /-- The constructor of a component. -/
  | constructor (component : String)
  /-- An element, of the given component if it is known. -/
  | element (component : Option String)
  /-- Whatever may stand as the child of an element. -/
  | renderable

/-- A field of a record type. -/
inductive Field where
  | mk (name : String) (type : Ty) (optional : Bool)

/-- A parameter of a function type. -/
inductive Param where
  | mk (name : String) (type : Ty) (optional : Bool) (rest : Bool)
end

instance : Inhabited Ty := ⟨.unknown⟩

instance : Inhabited Field := ⟨.mk "" .unknown false⟩

instance : Inhabited Param := ⟨.mk "" .unknown false false⟩

/-- The name of a field. -/
def Field.name : Field → String
  | .mk name _ _ => name

/-- The declared type of a field. -/
def Field.type : Field → Ty
  | .mk _ type _ => type

/-- Whether the field may be absent. -/
def Field.optional : Field → Bool
  | .mk _ _ optional => optional

/-- The name of a parameter. -/
def Param.name : Param → String
  | .mk name _ _ _ => name

/-- The type of a parameter. -/
def Param.type : Param → Ty
  | .mk _ type _ _ => type

/-- Whether the argument may be left out. -/
def Param.optional : Param → Bool
  | .mk _ _ optional _ => optional

/-- Whether the parameter takes all further arguments. -/
def Param.rest : Param → Bool
  | .mk _ _ _ rest => rest

/-- The parameters and the result of a function. -/
structure Signature where
  params : List Param
  returns : Ty
deriving Inhabited

/-- The function type of a signature. -/
def Signature.toType (signature : Signature) : Ty :=
  .function signature.params signature.returns

/-- The signature of a function type. -/
def Ty.signature? : Ty → Option Signature
  | .function params returns => some { params := params, returns := returns }
  | _ => none

namespace Ty

/-- The type of numbers. -/
abbrev number : Ty := .primitive .number

/-- The type of strings. -/
abbrev string : Ty := .primitive .string

/-- The type of truth values. -/
abbrev boolean : Ty := .primitive .boolean

/-- Whether the type leaves its values unconstrained. -/
def isUnknown : Ty → Bool
  | .unknown => true
  | _ => false

end Ty

/-- The field of that name. -/
def findField (name : String) : List Field → Option Field
  | [] => none
  | field :: rest => if field.name = name then some field else findField name rest

mutual
/-- Equality of types. The order of the fields of a record does not matter; the order of the
members of a union does. -/
def Ty.same : Ty → Ty → Bool
  | .unknown, .unknown => true
  | .primitive a, .primitive b => a = b
  | .literal a, .literal b => a = b
  | .null, .null => true
  | .undefined, .undefined => true
  | .array a, .array b => a.same b
  | .map a, .map b => a.same b
  | .record a, .record b => a.length = b.length && sameFields a b
  | .union a, .union b => sameAll a b
  | .function ps r, .function qs s => sameParams ps qs && r.same s
  | .anyFunction, .anyFunction => true
  | .anyObject, .anyObject => true
  | .named a, .named b => a = b
  | .constructor a, .constructor b => a = b
  | .element a, .element b => a = b
  | .renderable, .renderable => true
  | _, _ => false
termination_by structural a => a

/-- Whether two lists hold equal types place by place. -/
def sameAll : List Ty → List Ty → Bool
  | [], [] => true
  | a :: as, b :: bs => a.same b && sameAll as bs
  | _, _ => false
termination_by structural as => as

/-- Whether the field of its name in a list is equal to the given one. -/
def sameField : Field → List Field → Bool
  | .mk name type optional, others =>
    match findField name others with
    | some other => type.same other.type && optional = other.optional
    | none => false
termination_by structural field => field

/-- Whether every field of the first list has an equal one of its name in the second. -/
def sameFields : List Field → List Field → Bool
  | [], _ => true
  | field :: rest, others => sameField field others && sameFields rest others
termination_by structural fields => fields

/-- Whether two parameters are equal, names included. -/
def sameParam : Param → Param → Bool
  | .mk n t o r, .mk m u p s => n = m && t.same u && o = p && r = s
termination_by structural param => param

/-- Whether two lists hold equal parameters place by place. -/
def sameParams : List Param → List Param → Bool
  | [], [] => true
  | p :: ps, q :: qs => sameParam p q && sameParams ps qs
  | _, _ => false
termination_by structural params => params
end

instance : BEq Ty := ⟨Ty.same⟩

/-- Equality of signatures, the names of parameters included. -/
def Signature.same (a b : Signature) : Bool :=
  sameParams a.params b.params && a.returns.same b.returns

instance : BEq Signature := ⟨Signature.same⟩

namespace Signature

/-- How many arguments a call must pass: those before the first that may be left out. -/
def minArity (signature : Signature) : Nat :=
  (signature.params.takeWhile fun p => !p.optional && !p.rest).length

/-- How many arguments a call may pass; unbounded if some parameter takes all further ones. -/
def maxArity? (signature : Signature) : Option Nat :=
  if signature.params.any Param.rest then none else some signature.params.length

/-- The parameter that takes the argument at a position: the one in that place, or beyond the end
a last one that takes all further arguments. -/
def paramAt? (signature : Signature) (index : Nat) : Option Param :=
  match signature.params[index]? with
  | some param => some param
  | none => signature.params.getLast?.filter Param.rest

end Signature

end ClassFactory
