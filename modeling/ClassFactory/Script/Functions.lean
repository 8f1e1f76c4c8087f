/-
Module: ClassFactory.Script.Functions
Purpose: The grammar of functions, methods, object literals and classes.
Main exports: statementList, functionRest, methodFunction, objectLiteral, classExpression
-/
import ClassFactory.Script.Bindings

namespace ClassFactory.Script

/-- Whether a statement is nothing but a string without parentheses. -/
def isDirective : Stmt → Bool
  | .expression (.string _ _) _ => true
  | _ => false

/-- Statements up to a closing brace, which is taken. -/
def statementList (parse : Grammar) : Parser (List Stmt) :=
  Parser.loop
    (fun (done : List Stmt) => do
      if ← eat "\x7d" then return .inr done.reverse
      else
        let next ← parse .statement
        return .inl (next :: done))
    []

/-- Statements in braces. -/
def block (parse : Grammar) : Parser (List Stmt) := do
  expect "\x7b"
  statementList parse

/-- The body of a function in braces. Strings at its start are directives and no statements. -/
def functionBody (parse : Grammar) : Parser (List Stmt) := do
  let statements ← block parse
  return statements.dropWhile isDirective

/-- The parameters and the body of a function. -/
def functionRest (parse : Grammar) (start : Nat) (isAsync isGenerator : Bool) : Parser Expr := do
  let (params, body) ← withSettings true isAsync isGenerator do
    let params ← parameterList parse
    let body ← functionBody parse
    return (params, body)
  return .function params body (← spanFrom start)

/-- A method as the function it is; its range begins at the parameters. -/
def methodFunction (parse : Grammar) (isAsync isGenerator : Bool) : Parser Expr := do
  functionRest parse (← startOffset) isAsync isGenerator

/-- A function expression or declaration after the word `async`, if it has one, which stands at
`start`. A name is optional. -/
def functionExpression (parse : Grammar) (start : Nat) (isAsync : Bool) : Parser Expr := do
  expectWord "function"
  let isGenerator ← eat "*"
  if !(← atPunct "(") then
    let _ ← variableName
  functionRest parse start isAsync isGenerator

/-- Whether a word in front of a member is part of it, such as `get` or `async`, and not its name:
a name is followed by one of these marks. -/
def isModifier (ends : List String) : Parser Bool := do
  match ← punctAfter with
  | some mark => return !ends.contains mark
  | none =>
    let state ← get
    match (scanToken state.after).1 with
    | .eof => return false
    | _ => return true

/-- The modifiers in front of a member: whether it is asynchronous, a generator, an accessor. -/
structure Modifiers where
  isAsync : Bool
  isGenerator : Bool
  isAccessor : Bool

/-- Takes the modifiers of a member. `ends` lists the marks that may follow a member's name. The
word `async` and the member stand on one line. -/
def modifiers (ends : List String) : Parser Modifiers := do
  let sameLine := Parser.lookAhead do
    advance
    return !(← get).newline
  let isAsync ← do
    if (← atWord "async") && (← isModifier ends) && (← sameLine) then
      advance
      pure true
    else pure false
  let isGenerator ← eat "*"
  let isAccessor ← do
    if !isAsync && !isGenerator && ((← atWord "get") || (← atWord "set")) && (← isModifier ends) then
      advance
      pure true
    else pure false
  return { isAsync := isAsync, isGenerator := isGenerator, isAccessor := isAccessor }

/-- The marks that may follow the name of a property of an object. -/
def propertyEnds : List String := ["(", ":", ",", "=", "\x7d"]

/-- The marks that may follow the name of a member of a class. -/
def memberEnds : List String := ["(", "=", ";", "\x7d"]

/-- The value of a shorthand property, with a default if the literal is to be a pattern. -/
def shorthandValue (parse : Grammar) (name : String) (span : Span) : Parser Expr := do
  if ← eat "=" then
    let value ← parse (.assignment true)
    modify fun state => { state with unclaimedDefault := true }
    return .assign (.ident name span) value (← spanFrom span.start)
  else return .ident name span

/-- One property of an object literal. -/
def objectProperty (parse : Grammar) : Parser Property := do
  let start ← startOffset
  if ← eat "..." then
    let value ← parse (.assignment true)
    return .spread value (← spanFrom start)
  else
    let marks ← modifiers propertyEnds
    let state ← get
    let shorthand := match state.token with
      | .name text _ => if isVariableName state text then some text else none
      | _ => none
    let key ← propertyKey parse
    if ← atPunct "(" then
      let method ← methodFunction parse marks.isAsync marks.isGenerator
      return .entry key method (← spanFrom start)
    else if marks.isAsync || marks.isGenerator || marks.isAccessor then failure
    else if ← eat ":" then
      let value ← parse (.assignment true)
      return .entry key value (← spanFrom start)
    else
      match shorthand with
      | some name =>
        let value ← shorthandValue parse name key.span
        return .entry key value (← spanFrom start)
      | none => failure

/-- An object literal after its brace, which stands at `start`. -/
def objectLiteral (parse : Grammar) (start : Nat) : Parser Expr :=
  Parser.loop
    (fun (done : List Property) => do
      if ← eat "\x7d" then return .inr (Expr.object done.reverse (← spanFrom start))
      else
        let next ← objectProperty parse
        if ← eat "," then return .inl (next :: done)
        else
          expect "\x7d"
          return .inr (Expr.object (next :: done).reverse (← spanFrom start)))
    []

/-- The computed part of a key. -/
def Key.parts : Key → List Part
  | .named _ _ => []
  | .computed e => [.expr e]

/-- One member of a class, as its parts. -/
def classMember (parse : Grammar) : Parser (List Part) := do
  let isStatic ← do
    if (← atWord "static") && (← isModifier memberEnds) then
      advance
      pure true
    else pure false
  if isStatic && (← atPunct "\x7b") then
    let statements ← withSettings false false false (block parse)
    return statements.map Part.stmt
  else
    let marks ← modifiers memberEnds
    let key ← propertyKey parse
    if ← atPunct "(" then
      let method ← methodFunction parse marks.isAsync marks.isGenerator
      return key.parts ++ [.expr method]
    else if marks.isAsync || marks.isGenerator || marks.isAccessor then failure
    else
      let value ← do
        if ← eat "=" then
          let value ← withSettings false false false (parse (.assignment true))
          pure [Part.expr value]
        else pure []
      semicolon
      return key.parts ++ value

/-- The members of a class in braces, as its parts. -/
def classBody (parse : Grammar) : Parser (List Part) := do
  expect "\x7b"
  Parser.loop
    (fun (done : List Part) => do
      if ← eat "\x7d" then return .inr done
      else if ← eat ";" then return .inl done
      else
        let parts ← classMember parse
        return .inl (done ++ parts))
    []

/-- A class, by its heritage and its members; a name is optional. -/
def classExpression (parse : Grammar) : Parser Expr := do
  let start ← startOffset
  expectWord "class"
  if !(← atWord "extends") && !(← atPunct "\x7b") then
    let _ ← variableName
  let heritage ← do
    if ← eatWord "extends" then
      let e ← parse .unary
      pure [Part.expr e]
    else pure []
  let members ← classBody parse
  return .other false (heritage ++ members) (← spanFrom start)

end ClassFactory.Script
