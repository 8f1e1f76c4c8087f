/-
Module: ClassFactory.Script.Tree
Purpose: Trees of JavaScript programs, as far as the analysis reads them. Names, members, calls,
  literals, functions, assignments and elements have forms of their own; every other construct
  keeps its parts in source order. Spans are byte ranges of the source.
Main exports: Expr, Item, Property, Key, Binding, Parameter, Declarator, Attribute, Child, Stmt,
  Part, Tag, Program, Expr.span, Expr.unparen, Expr.qualifiedName?, Key.name?
-/
import ClassFactory.Source.Site

namespace ClassFactory.Script

/-- Operators in front of one operand. -/
inductive UnaryOp where
  | negate
  | plus
  | bitNot
  | not
  | typeof
  | void
  | delete
deriving Repr, Inhabited, DecidableEq

/-- Operators between two operands, by the kind of value they yield. -/
inductive BinaryOp where
  /-- Addition or concatenation. -/
  | add
  /-- Equality, order, `in` and `instanceof`. -/
  | compare
  /-- Arithmetic on numbers and bits. -/
  | arithmetic
deriving Repr, Inhabited, DecidableEq

/-- The name of an element. -/
inductive Tag where
  /-- A name of the host, or one that names no variable. -/
  | plain
  /-- The word `this` as the object of a member. -/
  | this
  | reference (name : String) (span : Span)
  | member (object : Tag) (property : String) (span : Span)
deriving Repr, Inhabited

mutual
/-- An expression. -/
inductive Expr where
  | ident (name : String) (span : Span)
  | this (span : Span)
  | string (value : String) (span : Span)
  | number (value : Float) (span : Span)
  | bool (value : Bool) (span : Span)
  | null (span : Span)
  | regex (span : Span)
  /-- A template with its embedded expressions. -/
  | template (parts : List Expr) (span : Span)
  | array (items : List Item) (span : Span)
  | object (properties : List Property) (span : Span)
  /-- A function with its own `this`. The span of a method begins at its parameters. -/
  | function (params : List Parameter) (body : List Stmt) (span : Span)
  /-- A function without its own `this`. A concise body is one expression statement. -/
  | arrow (params : List Parameter) (concise : Bool) (body : List Stmt) (span : Span)
  | member (object : Expr) (property : String) (propertySpan : Span) (span : Span)
  | call (callee : Expr) (args : List Item) (span : Span)
  | construct (callee : Expr) (args : List Item) (span : Span)
  | unary (op : UnaryOp) (operand : Expr) (span : Span)
  | binary (op : BinaryOp) (left right : Expr) (span : Span)
  | conditional (test consequent alternate : Expr) (span : Span)
  /-- An assignment of any kind. A name or a member is its own target, without parentheses. -/
  | assign (target value : Expr) (span : Span)
  | paren (inner : Expr) (span : Span)
  /-- An element with the name of its closing tag, if it has one. -/
  | element (tag : Tag) (attributes : List Attribute) (children : List Child)
      (closing : Option Tag) (span : Span)
  | fragment (children : List Child) (span : Span)
  /-- Any other expression, by its parts. Computed and private members may be assigned to. -/
  | other (assignable : Bool) (parts : List Part) (span : Span)

/-- An item of an array or an argument of a call. -/
inductive Item where
  | value (e : Expr)
  | spread (e : Expr) (span : Span)
  /-- A place left empty in an array. -/
  | hole

/-- A member of an object literal. -/
inductive Property where
  | entry (key : Key) (value : Expr) (span : Span)
  | spread (e : Expr) (span : Span)

/-- The key of a property. Names, strings and numbers are known without running the program. -/
inductive Key where
  | named (name : String) (span : Span)
  | computed (e : Expr)

/-- What a declaration or a parameter binds: a name, or a pattern of which the expressions inside
are kept. -/
inductive Binding where
  | name (name : String) (span : Span)
  | pattern (parts : List Expr)

/-- A parameter of a function. -/
inductive Parameter where
  | plain (binding : Binding)
  | defaulted (binding : Binding) (value : Expr)
  | rest (binding : Binding)

/-- One declared variable. -/
inductive Declarator where
  | bare (binding : Binding)
  | initialized (binding : Binding) (value : Expr)

/-- An attribute of an element. Without a value it has the value `true`. -/
inductive Attribute where
  | named (name : String) (value : Expr) (span : Span)
  /-- An attribute in a name space. -/
  | foreign (value : Expr)
  | spread (e : Expr)

/-- A child of an element; the span of an embedded expression includes its braces. -/
inductive Child where
  | text (raw : String) (span : Span)
  | value (e : Expr) (span : Span)
  | spread (e : Expr) (span : Span)

/-- A statement. -/
inductive Stmt where
  | expression (e : Expr) (span : Span)
  /-- A declaration of variables; the span begins at its keyword. -/
  | variables (exported : Bool) (declarators : List Declarator) (span : Span)
  /-- A return statement with a value. -/
  | returns (value : Expr)
  /-- Any other statement, by its parts. -/
  | other (parts : List Part)

/-- A part of an expression or statement that has no form of its own. -/
inductive Part where
  | expr (e : Expr)
  | stmt (s : Stmt)
end

instance : Inhabited Expr := ⟨.null default⟩

instance : Inhabited Stmt := ⟨.other []⟩

/-- A parsed program with the byte ranges of its comments, in order. -/
structure Program where
  body : List Stmt
  comments : List Span
deriving Inhabited

/-- The name a tag refers to, dotted for members. -/
def Tag.name? : Tag → Option String
  | .plain => none
  | .this => none
  | .reference name _ => some name
  | .member object property _ => object.name?.map fun name => name ++ "." ++ property

namespace Expr

/-- Where an expression stands. -/
def span : Expr → Span
  | .ident _ span => span
  | .this span => span
  | .string _ span => span
  | .number _ span => span
  | .bool _ span => span
  | .null span => span
  | .regex span => span
  | .template _ span => span
  | .array _ span => span
  | .object _ span => span
  | .function _ _ span => span
  | .arrow _ _ _ span => span
  | .member _ _ _ span => span
  | .call _ _ span => span
  | .construct _ _ span => span
  | .unary _ _ span => span
  | .binary _ _ _ span => span
  | .conditional _ _ _ span => span
  | .assign _ _ span => span
  | .paren _ span => span
  | .element _ _ _ _ span => span
  | .fragment _ span => span
  | .other _ _ span => span

/-- The expression without the parentheses around it. -/
def unparen : Expr → Expr
  | .paren inner _ => inner.unparen
  | e => e

/-- The dotted name that an expression spells: a name, or a member of such an expression.
Parentheses do not matter. -/
def qualifiedName? : Expr → Option String
  | .ident name _ => some name
  | .member owner property _ _ => owner.qualifiedName?.map fun name => name ++ "." ++ property
  | .paren inner _ => inner.qualifiedName?
  | _ => none

end Expr

/-- The name of a key that is known without running the program. -/
def Key.name? : Key → Option String
  | .named name _ => some name
  | .computed _ => none

/-- Where a key stands. -/
def Key.span : Key → Span
  | .named _ span => span
  | .computed e => e.span

/-- The expression of an item, unless it is spread or left empty. -/
def Item.value? : Item → Option Expr
  | .value e => some e
  | .spread _ _ => none
  | .hole => none

/-- Whether an item is spread. -/
def Item.isSpread : Item → Bool
  | .spread _ _ => true
  | _ => false

/-- The expression of the first item, unless it is spread or left empty. -/
def firstValue? (items : List Item) : Option Expr :=
  items.head?.bind Item.value?

/-- What a parameter binds. -/
def Parameter.binding : Parameter → Binding
  | .plain binding => binding
  | .defaulted binding _ => binding
  | .rest binding => binding

/-- Whether a parameter takes all further arguments. -/
def Parameter.isRest : Parameter → Bool
  | .rest _ => true
  | _ => false

/-- What a declarator binds. -/
def Declarator.binding : Declarator → Binding
  | .bare binding => binding
  | .initialized binding _ => binding

/-- The value a declarator starts with. -/
def Declarator.init? : Declarator → Option Expr
  | .bare _ => none
  | .initialized _ value => some value

/-- The name a binding binds, unless it is a pattern. -/
def Binding.name? : Binding → Option String
  | .name bound _ => some bound
  | .pattern _ => none

end ClassFactory.Script
