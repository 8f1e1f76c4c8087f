/-
Module: ClassFactory.Factory.Value
Purpose: What the syntax of a value in a specification shows of it: its type, and the object that a
  function returns.
Main exports: Expr.shownType, Expr.returnedObject?, parameterNames, hasRest
-/
import ClassFactory.Script.Tree
import ClassFactory.Types.Basic

namespace ClassFactory.Script

/-- Whether the expression is a number, without parentheses. -/
def Expr.isNumeral : Expr → Bool
  | .number _ _ => true
  | _ => false

/-- The type of a plain value as far as its syntax shows it. -/
def Expr.shownType (e : Expr) : Ty :=
  match e.unparen with
  | .string _ _ => .string
  | .template _ _ => .string
  | .number _ _ => .number
  | .bool _ _ => .boolean
  | .array _ _ => .array .unknown
  | .object _ _ => .anyObject
  | .function _ _ _ => .anyFunction
  | .arrow _ _ _ _ => .anyFunction
  | .unary _ operand _ => if operand.isNumeral then .number else .unknown
  | _ => .unknown

/-- The properties of an object literal. -/
def Expr.properties? (e : Expr) : Option (List Property) :=
  match e.unparen with
  | .object properties _ => some properties
  | _ => none

/-- The object literal that a statement returns. -/
def Stmt.returnedObject? : Stmt → Option (List Property)
  | .returns value => value.properties?
  | _ => none

/-- The object literal that a function returns: the last one among its own statements, not those
inside other statements, or the concise body of an arrow function. -/
def Expr.returnedObject? : Expr → Option (List Property)
  | .function _ body _ => body.reverse.findSome? Stmt.returnedObject?
  | .arrow _ false body _ => body.reverse.findSome? Stmt.returnedObject?
  | .arrow _ true (.expression e _ :: _) _ => e.properties?
  | _ => none

/-- The names of parameters; a pattern is called `_`. -/
def parameterNames (params : List Parameter) : List String :=
  params.map fun param => param.binding.name?.getD "_"

/-- Whether the last parameter takes all further arguments. -/
def hasRest (params : List Parameter) : Bool :=
  params.any Parameter.isRest

/-- Whether an object literal spreads another value. -/
def hasSpread (properties : List Property) : Bool :=
  properties.any fun
    | .spread _ _ => true
    | .entry _ _ _ => false

end ClassFactory.Script
