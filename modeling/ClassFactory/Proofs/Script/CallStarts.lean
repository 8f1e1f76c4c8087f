/-
Module: ClassFactory.Proofs.Script.CallStarts
Purpose: Where the calls of a tree begin that call something by its name. Whatever a parse regroups,
  such as a pattern that was read as an expression, keeps these calls and their order.
Main exports: callStarts, callStarts_of_qualified, Expr.asTarget?_callStarts
-/
import ClassFactory.Script.Functions
import ClassFactory.Script.Nodes

namespace ClassFactory.Script

/-- Where the call begins that a node is, if it calls something by its name. -/
@[simp]
def Node.callStart? : Node → Option Nat
  | .expr (.call callee _ span) => if callee.qualifiedName?.isSome then some span.start else none
  | _ => none

/-- Where the calls among nodes begin that call something by its name. -/
def callStarts (nodes : List Node) : List Nat :=
  nodes.filterMap Node.callStart?

@[simp] theorem callStarts_nil : callStarts [] = [] := rfl

@[simp] theorem callStarts_append (nodes later : List Node) :
    callStarts (nodes ++ later) = callStarts nodes ++ callStarts later :=
  List.filterMap_append

/-- A call starts in front of what follows its node. -/
@[simp] theorem callStarts_cons (node : Node) (nodes : List Node) :
    callStarts (node :: nodes) = node.callStart?.toList ++ callStarts nodes := by
  rw [callStarts, List.filterMap_cons]
  cases node.callStart? <;> rfl

/-- Inside a name, dotted or not, nothing is called. -/
theorem callStarts_of_qualified : (e : Expr) → e.qualifiedName?.isSome → callStarts e.nodes = []
  | .ident _ _, _ => rfl
  | .member owner _ _ _, named => by
      rw [Expr.qualifiedName?, Option.isSome_map] at named
      rw [Expr.nodes, callStarts_cons, callStarts_of_qualified owner named]
      rfl
  | .paren inner _, named => by
      rw [Expr.nodes, callStarts_cons, callStarts_of_qualified inner named]
      rfl

/-! ## Lists of parts -/

/-- Lists of parts have the nodes of their parts, one after another. -/
theorem eq_flatMap {α : Type} {together : List α → List Node} {nodes : α → List Node}
    (nil : together [] = []) (cons : ∀ a rest, together (a :: rest) = nodes a ++ together rest)
    (parts : List α) : together parts = parts.flatMap nodes := by
  induction parts with
  | nil => exact nil
  | cons a rest ih => rw [cons, List.flatMap_cons, ih]

@[simp] theorem exprNodes_eq (es : List Expr) : exprNodes es = es.flatMap Expr.nodes :=
  eq_flatMap rfl (fun _ _ => rfl) es

@[simp] theorem itemNodes_eq (items : List Item) : itemNodes items = items.flatMap Item.nodes :=
  eq_flatMap rfl (fun _ _ => rfl) items

@[simp] theorem propertyNodes_eq (properties : List Property) :
    propertyNodes properties = properties.flatMap Property.nodes :=
  eq_flatMap rfl (fun _ _ => rfl) properties

@[simp] theorem parameterNodes_eq (parameters : List Parameter) :
    parameterNodes parameters = parameters.flatMap Parameter.nodes :=
  eq_flatMap rfl (fun _ _ => rfl) parameters

@[simp] theorem declaratorNodes_eq (declarators : List Declarator) :
    declaratorNodes declarators = declarators.flatMap Declarator.nodes :=
  eq_flatMap rfl (fun _ _ => rfl) declarators

@[simp] theorem attributeNodes_eq (givens : List Attribute) :
    attributeNodes givens = givens.flatMap Attribute.nodes :=
  eq_flatMap rfl (fun _ _ => rfl) givens

@[simp] theorem childNodes_eq (children : List Child) :
    childNodes children = children.flatMap Child.nodes :=
  eq_flatMap rfl (fun _ _ => rfl) children

@[simp] theorem stmtNodes_eq (statements : List Stmt) :
    stmtNodes statements = statements.flatMap Stmt.nodes :=
  eq_flatMap rfl (fun _ _ => rfl) statements

@[simp] theorem partNodes_eq (parts : List Part) : partNodes parts = parts.flatMap Part.nodes :=
  eq_flatMap rfl (fun _ _ => rfl) parts

attribute [simp] Expr.nodes Item.nodes Key.nodes Property.nodes Binding.nodes Parameter.nodes
  Declarator.nodes Attribute.nodes Child.nodes Stmt.nodes Part.nodes

@[simp] theorem flatMap_binding_parts (binding : Binding) :
    binding.parts.flatMap Expr.nodes = binding.nodes := by
  cases binding <;> simp [Binding.parts]

@[simp] theorem flatMap_key_parts (key : Key) : key.parts.flatMap Part.nodes = key.nodes := by
  cases key <;> simp [Key.parts]

@[simp] theorem flatMap_map_expr (es : List Expr) :
    (es.map Part.expr).flatMap Part.nodes = es.flatMap Expr.nodes :=
  List.flatMap_map ..

@[simp] theorem flatMap_map_stmt (statements : List Stmt) :
    (statements.map Part.stmt).flatMap Part.nodes = statements.flatMap Stmt.nodes :=
  List.flatMap_map ..

/-- The name of an element calls nothing. -/
@[simp] theorem callStarts_tag : (t : Tag) → callStarts t.nodes = []
  | .member object _ _ => by simp [Tag.nodes, callStarts_tag object]
  | .plain | .this | .reference .. => rfl

@[simp] theorem callStarts_closing (closing : Option Tag) :
    callStarts (closingNodes closing) = [] := by
  cases closing with
  | none => rfl
  | some t => exact callStarts_tag t

/-- Directives call nothing. -/
@[simp] theorem callStarts_dropWhile_directives (statements : List Stmt) :
    callStarts ((statements.dropWhile isDirective).flatMap Stmt.nodes) =
      callStarts (statements.flatMap Stmt.nodes) := by
  induction statements with
  | nil => rfl
  | cons s rest ih =>
      rw [List.dropWhile_cons]
      split
      next directive =>
        unfold isDirective at directive
        split at directive
        · simpa using ih
        · cases directive
      next => rfl

/-! ## Targets -/

/-- A target that is no pattern calls what the expression calls. -/
theorem asSimpleTarget?_callStarts : (e : Expr) → ∀ target, e.asSimpleTarget? = some target →
    callStarts target.nodes = callStarts e.nodes
  | .ident .., _, rfl => rfl
  | .member .., _, rfl => rfl
  | .other true _ _, _, rfl => rfl
  | .paren inner _, target, is => by
      simpa using asSimpleTarget?_callStarts inner target is

/-- A part of a pattern calls what it calls as an expression. -/
theorem targetElement?_callStarts {e : Expr} {whole : Option Expr} {parts : List Part}
    (same : ∀ target, whole = some target → callStarts target.nodes = callStarts e.nodes)
    (is : targetElement? e whole = some parts) :
    callStarts (parts.flatMap Part.nodes) = callStarts e.nodes := by
  unfold targetElement? at is
  split at is
  · cases is
    simp
  · obtain ⟨target, isWhole, rfl⟩ := Option.map_eq_some_iff.mp is
    simpa using same target isWhole

mutual
/-- A pattern calls what it calls as an expression. -/
theorem asTarget?_callStarts : (e : Expr) → ∀ target, e.asTarget? = some target →
    callStarts target.nodes = callStarts e.nodes
  | .ident .., _, rfl => rfl
  | .member .., _, rfl => rfl
  | .other true _ _, _, rfl => rfl
  | .paren inner _, target, is => by
      simpa using asSimpleTarget?_callStarts inner target is
  | .array items _, target, is => by
      obtain ⟨parts, isParts, rfl⟩ := Option.map_eq_some_iff.mp is
      simpa using itemTargets_callStarts items parts isParts
  | .object properties _, target, is => by
      obtain ⟨parts, isParts, rfl⟩ := Option.map_eq_some_iff.mp is
      simpa using propertyTargets_callStarts properties parts isParts

theorem asTargets?_callStarts : (item : Item) → ∀ parts, item.asTargets? = some parts →
    callStarts (parts.flatMap Part.nodes) = callStarts item.nodes
  | .hole, _, rfl => rfl
  | .value e, parts, is => targetElement?_callStarts (asTarget?_callStarts e) is
  | .spread e _, parts, is => by
      obtain ⟨target, isTarget, rfl⟩ := Option.map_eq_some_iff.mp is
      simpa using asTarget?_callStarts e target isTarget

theorem itemTargets_callStarts : (items : List Item) → ∀ parts, itemTargets items = some parts →
    callStarts (parts.flatMap Part.nodes) = callStarts (items.flatMap Item.nodes)
  | [], _, rfl => rfl
  | item :: rest, parts, is => by
      unfold itemTargets at is
      split at is
      next first others isFirst isOthers =>
        cases is
        simp [asTargets?_callStarts item first isFirst,
          itemTargets_callStarts rest others isOthers]
      next => cases is

theorem propertyTargets?_callStarts : (property : Property) → ∀ parts,
    property.asTargets? = some parts →
    callStarts (parts.flatMap Part.nodes) = callStarts property.nodes
  | .entry (.named _ _) value _, parts, is => by
      simpa using targetElement?_callStarts (asTarget?_callStarts value) is
  | .entry (.computed key) value _, parts, is => by
      obtain ⟨inside, isInside, rfl⟩ := Option.map_eq_some_iff.mp is
      simpa using targetElement?_callStarts (asTarget?_callStarts value) isInside
  | .spread e _, parts, is => by
      obtain ⟨target, isTarget, rfl⟩ := Option.map_eq_some_iff.mp is
      simpa using asTarget?_callStarts e target isTarget

theorem propertyTargets_callStarts : (properties : List Property) → ∀ parts,
    propertyTargets properties = some parts →
    callStarts (parts.flatMap Part.nodes) = callStarts (properties.flatMap Property.nodes)
  | [], _, rfl => rfl
  | property :: rest, parts, is => by
      unfold propertyTargets at is
      split at is
      next first others isFirst isOthers =>
        cases is
        simp [propertyTargets?_callStarts property first isFirst,
          propertyTargets_callStarts rest others isOthers]
      next => cases is
end

end ClassFactory.Script
