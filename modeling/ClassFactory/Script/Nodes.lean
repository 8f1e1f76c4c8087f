/-
Module: ClassFactory.Script.Nodes
Purpose: The nodes of a program in the order in which they stand in the source: every node comes
  before its parts, and the parts of a node come from left to right. What is bound or labelled is no
  node; what is assigned to is one.
Main exports: Node, Expr.nodes, Stmt.nodes, Program.nodes
-/
import ClassFactory.Script.Tree

namespace ClassFactory.Script

/-- A place of a program that an analysis may look at. -/
inductive Node where
  | expr (e : Expr)
  | stmt (s : Stmt)
  | declarator (d : Declarator)
  | tag (t : Tag)
deriving Inhabited

/-- A tag and the tags it is a member of, from the outside in. -/
def Tag.nodes : Tag → List Node
  | .member object property span => .tag (.member object property span) :: object.nodes
  | t => [.tag t]

/-- The nodes of the name of an element's closing tag. -/
def closingNodes : Option Tag → List Node
  | some tag => tag.nodes
  | none => []

mutual
/-- An expression and its parts. -/
def Expr.nodes : Expr → List Node
  | .template parts span => .expr (.template parts span) :: exprNodes parts
  | .array items span => .expr (.array items span) :: itemNodes items
  | .object properties span => .expr (.object properties span) :: propertyNodes properties
  | .function params body span =>
    .expr (.function params body span) :: (parameterNodes params ++ stmtNodes body)
  | .arrow params concise body span =>
    .expr (.arrow params concise body span) :: (parameterNodes params ++ stmtNodes body)
  | .member owner property propertySpan span =>
    .expr (.member owner property propertySpan span) :: owner.nodes
  | .call callee args span => .expr (.call callee args span) :: (callee.nodes ++ itemNodes args)
  | .construct callee args span =>
    .expr (.construct callee args span) :: (callee.nodes ++ itemNodes args)
  | .unary op operand span => .expr (.unary op operand span) :: operand.nodes
  | .binary op left right span => .expr (.binary op left right span) :: (left.nodes ++ right.nodes)
  | .conditional test consequent alternate span =>
    .expr (.conditional test consequent alternate span) ::
      (test.nodes ++ consequent.nodes ++ alternate.nodes)
  | .assign target value span =>
    .expr (.assign target value span) :: (target.nodes ++ value.nodes)
  | .paren inner span => .expr (.paren inner span) :: inner.nodes
  | .element tag attributes children closing span =>
    .expr (.element tag attributes children closing span) ::
      (tag.nodes ++ attributeNodes attributes ++ childNodes children ++ closingNodes closing)
  | .fragment children span => .expr (.fragment children span) :: childNodes children
  | .other assignable parts span => .expr (.other assignable parts span) :: partNodes parts
  | e => [.expr e]
termination_by structural e => e

/-- Expressions and their parts. -/
def exprNodes : List Expr → List Node
  | [] => []
  | e :: rest => e.nodes ++ exprNodes rest
termination_by structural es => es

/-- The expression of an item and its parts. -/
def Item.nodes : Item → List Node
  | .value e => e.nodes
  | .spread e _ => e.nodes
  | .hole => []
termination_by structural item => item

/-- The expressions of items and their parts. -/
def itemNodes : List Item → List Node
  | [] => []
  | item :: rest => item.nodes ++ itemNodes rest
termination_by structural items => items

/-- The key of a property, if it is computed. -/
def Key.nodes : Key → List Node
  | .named _ _ => []
  | .computed e => e.nodes
termination_by structural key => key

/-- The key and the value of a property. -/
def Property.nodes : Property → List Node
  | .entry key value _ => key.nodes ++ value.nodes
  | .spread e _ => e.nodes
termination_by structural property => property

/-- The keys and values of properties. -/
def propertyNodes : List Property → List Node
  | [] => []
  | property :: rest => property.nodes ++ propertyNodes rest
termination_by structural properties => properties

/-- The expressions inside a binding. -/
def Binding.nodes : Binding → List Node
  | .name _ _ => []
  | .pattern parts => exprNodes parts
termination_by structural binding => binding

/-- The expressions inside a parameter. -/
def Parameter.nodes : Parameter → List Node
  | .plain binding => binding.nodes
  | .defaulted binding value => binding.nodes ++ value.nodes
  | .rest binding => binding.nodes
termination_by structural parameter => parameter

/-- The expressions inside parameters. -/
def parameterNodes : List Parameter → List Node
  | [] => []
  | parameter :: rest => parameter.nodes ++ parameterNodes rest
termination_by structural parameters => parameters

/-- A declarator and its parts. -/
def Declarator.nodes : Declarator → List Node
  | .bare binding => .declarator (.bare binding) :: binding.nodes
  | .initialized binding value =>
    .declarator (.initialized binding value) :: (binding.nodes ++ value.nodes)
termination_by structural declarator => declarator

/-- Declarators and their parts. -/
def declaratorNodes : List Declarator → List Node
  | [] => []
  | declarator :: rest => declarator.nodes ++ declaratorNodes rest
termination_by structural declarators => declarators

/-- The value of an attribute. -/
def Attribute.nodes : Attribute → List Node
  | .named _ value _ => value.nodes
  | .foreign value => value.nodes
  | .spread e => e.nodes
termination_by structural given => given

/-- The values of attributes. -/
def attributeNodes : List Attribute → List Node
  | [] => []
  | given :: rest => given.nodes ++ attributeNodes rest
termination_by structural givens => givens

/-- The expression of a child. -/
def Child.nodes : Child → List Node
  | .text _ _ => []
  | .value e _ => e.nodes
  | .spread e _ => e.nodes
termination_by structural child => child

/-- The expressions of children. -/
def childNodes : List Child → List Node
  | [] => []
  | child :: rest => child.nodes ++ childNodes rest
termination_by structural children => children

/-- A statement and its parts. -/
def Stmt.nodes : Stmt → List Node
  | .expression e span => .stmt (.expression e span) :: e.nodes
  | .variables exported declarators span =>
    .stmt (.variables exported declarators span) :: declaratorNodes declarators
  | .returns value => .stmt (.returns value) :: value.nodes
  | .other parts => .stmt (.other parts) :: partNodes parts
termination_by structural s => s

/-- Statements and their parts. -/
def stmtNodes : List Stmt → List Node
  | [] => []
  | s :: rest => s.nodes ++ stmtNodes rest
termination_by structural statements => statements

/-- A part of a construct without a form of its own. -/
def Part.nodes : Part → List Node
  | .expr e => e.nodes
  | .stmt s => s.nodes
termination_by structural part => part

/-- The parts of a construct without a form of its own. -/
def partNodes : List Part → List Node
  | [] => []
  | part :: rest => part.nodes ++ partNodes rest
termination_by structural parts => parts
end

/-- Every node of a program. -/
def Program.nodes (program : Program) : List Node :=
  stmtNodes program.body

end ClassFactory.Script
