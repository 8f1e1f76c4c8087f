/-
Module: ClassFactory.Script.Bindings
Purpose: What declarations, parameters and assignments bind: names and patterns. An expression on
  the left of an assignment is read as an expression first and turned into a target afterwards.
Main exports: Expr.asTarget?, Expr.asSimpleTarget?, propertyKey, parseBinding, bindingElement,
  parameterList
-/
import ClassFactory.Script.Parsing

namespace ClassFactory.Script

/-- The expression as a target that is no pattern: a name or a member, in parentheses or not. -/
def Expr.asSimpleTarget? : Expr → Option Expr
  | .ident name span => some (.ident name span)
  | .member owner property propertySpan span => some (.member owner property propertySpan span)
  | .other true parts span => some (.other true parts span)
  | .paren inner _ => inner.asSimpleTarget?
  | _ => none

/-- An element of a pattern: an assignment is a target with its default, anything else must be a
target, which is given. -/
def targetElement? (e : Expr) (target : Option Expr) : Option (List Part) :=
  match e with
  | .assign target value _ => some [.expr target, .expr value]
  | _ => target.map fun target => [.expr target]

mutual
/-- The expression as the target of an assignment. Arrays and objects become patterns, of which the
targets and defaults are kept in order. -/
def Expr.asTarget? : Expr → Option Expr
  | .ident name span => some (.ident name span)
  | .member owner property propertySpan span => some (.member owner property propertySpan span)
  | .other true parts span => some (.other true parts span)
  | .paren inner _ => inner.asSimpleTarget?
  | .array items span => (itemTargets items).map fun parts => .other false parts span
  | .object properties span => (propertyTargets properties).map fun parts => .other false parts span
  | _ => none
termination_by structural e => e

/-- The targets in one place of an array pattern. -/
def Item.asTargets? : Item → Option (List Part)
  | .hole => some []
  | .value e => targetElement? e e.asTarget?
  | .spread e _ => e.asTarget?.map fun target => [.expr target]
termination_by structural item => item

/-- The targets of an array pattern. -/
def itemTargets : List Item → Option (List Part)
  | [] => some []
  | item :: rest =>
    match item.asTargets?, itemTargets rest with
    | some parts, some others => some (parts ++ others)
    | _, _ => none
termination_by structural items => items

/-- The targets of one member of an object pattern, after its key if that is computed. -/
def Property.asTargets? : Property → Option (List Part)
  | .entry (.named _ _) value _ => targetElement? value value.asTarget?
  | .entry (.computed key) value _ =>
    (targetElement? value value.asTarget?).map fun parts => .expr key :: parts
  | .spread e _ => e.asTarget?.map fun target => [.expr target]
termination_by structural property => property

/-- The targets of an object pattern. -/
def propertyTargets : List Property → Option (List Part)
  | [] => some []
  | property :: rest =>
    match property.asTargets?, propertyTargets rest with
    | some parts, some others => some (parts ++ others)
    | _, _ => none
termination_by structural properties => properties
end

/-- An expression without parts, for what the analysis never looks at. -/
def emptyExpr (span : Span) : Expr := .other false [] span

/-- A key of an object, a class or a pattern. A computed key that is a string or a number is known
like any other. -/
def propertyKey (parse : Grammar) : Parser Key := do
  let state ← get
  let span ← tokenSpan
  match state.token with
  | .name text _ => do
    advance
    return .named text span
  | .string value => do
    advance
    return .named value span
  | .number value => do
    advance
    return .named (Decimal.positional value) span
  | .bigint => do
    advance
    return .computed (emptyExpr span)
  | .hidden _ => do
    advance
    return .computed (emptyExpr span)
  | .punct "[" => do
    advance
    let key ← parse (.assignment true)
    expect "]"
    match key with
    | .string value span => return .named value span
    | .number value span => return .named (Decimal.positional value) span
    | _ => return .computed key
  | _ => failure

/-- The expressions inside a binding. -/
def Binding.parts : Binding → List Expr
  | .name _ _ => []
  | .pattern inside => inside

/-- A binding with an optional default, as the expressions inside. -/
def bindingElement (parse : Grammar) : Parser (List Expr) := do
  let binding ← parse .binding
  if ← eat "=" then
    let value ← parse (.assignment true)
    return binding.parts ++ [value]
  else return binding.parts

/-- The rest of an array pattern after its bracket. -/
def arrayPattern (parse : Grammar) : Parser Binding :=
  Parser.loop
    (fun (parts : List Expr) => do
      if ← eat "]" then return .inr (Binding.pattern parts)
      else if ← eat "," then return .inl parts
      else if ← eat "..." then
        let rest ← parse .binding
        expect "]"
        return .inr (Binding.pattern (parts ++ rest.parts))
      else
        let element ← bindingElement parse
        if ← eat "," then return .inl (parts ++ element)
        else
          expect "]"
          return .inr (Binding.pattern (parts ++ element)))
    []

/-- One member of an object pattern, as the expressions inside. -/
def patternMember (parse : Grammar) : Parser (List Expr) := do
  let state ← get
  let shorthand := match state.token with
    | .name text _ => isVariableName state text
    | _ => false
  let key ← propertyKey parse
  let before := match key with
    | .named _ _ => []
    | .computed e => [e]
  if ← eat ":" then
    let element ← bindingElement parse
    return before ++ element
  else if shorthand then
    if ← eat "=" then
      let value ← parse (.assignment true)
      return [value]
    else return []
  else failure

/-- The rest of an object pattern after its brace. -/
def objectPattern (parse : Grammar) : Parser Binding :=
  Parser.loop
    (fun (parts : List Expr) => do
      if ← eat "\x7d" then return .inr (Binding.pattern parts)
      else if ← eat "..." then
        let rest ← parse .binding
        expect "\x7d"
        return .inr (Binding.pattern (parts ++ rest.parts))
      else
        let inside ← patternMember parse
        if ← eat "," then return .inl (parts ++ inside)
        else
          expect "\x7d"
          return .inr (Binding.pattern (parts ++ inside)))
    []

/-- A name or a pattern. -/
def parseBinding (parse : Grammar) : Parser Binding := do
  if ← eat "[" then arrayPattern parse
  else if ← eat "\x7b" then objectPattern parse
  else
    let (name, span) ← variableName
    return .name name span

/-- One parameter that is no rest parameter. -/
def parameter (parse : Grammar) : Parser Parameter := do
  let binding ← parse .binding
  if ← eat "=" then
    let value ← parse (.assignment true)
    return .defaulted binding value
  else return .plain binding

/-- The parameters of a function in parentheses. -/
def parameterList (parse : Grammar) : Parser (List Parameter) := do
  expect "("
  Parser.loop
    (fun (done : List Parameter) => do
      if ← eat ")" then return .inr done
      else if ← eat "..." then
        let binding ← parse .binding
        expect ")"
        return .inr (done ++ [Parameter.rest binding])
      else
        let next ← parameter parse
        if ← eat "," then return .inl (done ++ [next])
        else
          expect ")"
          return .inr (done ++ [next]))
    []

end ClassFactory.Script
