/-
Module: ClassFactory.Script.Statements
Purpose: The grammar of statements, declarations and modules.
Main exports: statement, programBody
-/
import ClassFactory.Script.Expressions
import ClassFactory.Script.Elements

namespace ClassFactory.Script

/-- What kind of variables a declaration declares. -/
inductive VariableKind where
  | var
  | letKind
  | const
deriving DecidableEq

/-- The kind of variables the current token declares. The word `let` declares variables only in
front of a name or a pattern. -/
def variableKind? : Parser (Option VariableKind) := do
  if ← atWord "var" then return some .var
  else if ← atWord "const" then return some .const
  else if ← atWord "let" then
    let declares ← Parser.lookAhead do
      advance
      let state ← get
      match state.token with
      | .name text _ => return isVariableName state text
      | .punct mark => return mark = "[" || mark = "\x7b"
      | _ => return false
    return if declares then some .letKind else none
  else return none

/-- Whether a declarator may lack a value in a statement of its own: patterns and constants need
one. -/
def mayLackValue (kind : VariableKind) : Binding → Bool
  | .name _ _ => kind ≠ .const
  | .pattern _ => false

/-- One declarator. In the head of a loop it may always lack a value. -/
def declarator (parse : Grammar) (kind : VariableKind) (inLoop : Bool) : Parser Declarator := do
  let binding ← parse .binding
  if ← eat "=" then
    let value ← parse (.assignment (!inLoop))
    return .initialized binding value
  else if inLoop || mayLackValue kind binding then return .bare binding
  else failure

/-- The declarators of a declaration after its keyword. -/
def declarators (parse : Grammar) (kind : VariableKind) (inLoop : Bool) :
    Parser (List Declarator) :=
  Parser.loop
    (fun (done : List Declarator) => do
      let next ← declarator parse kind inLoop
      if ← eat "," then return .inl (next :: done)
      else return .inr (next :: done).reverse)
    []

/-- A declaration of variables, with the semicolon that ends it. -/
def variableStatement (parse : Grammar) (kind : VariableKind) (exported : Bool) : Parser Stmt := do
  let start ← startOffset
  advance
  let declared ← declarators parse kind false
  semicolon
  return .variables exported declared (← spanFrom start)

/-- An expression in parentheses, as the heads of statements have it. -/
def headExpression (parse : Grammar) : Parser Expr := do
  expect "("
  let e ← parse (.expression true)
  expect ")"
  return e

/-- A function declaration, which has a name unless it is exported by default. -/
def functionDeclaration (parse : Grammar) (named : Bool) : Parser Stmt := do
  let start ← startOffset
  let isAsync ← eatWord "async"
  expectWord "function"
  let isGenerator ← eat "*"
  if named || !(← atPunct "(") then
    let _ ← variableName
  let function ← functionRest parse start isAsync isGenerator
  return .other [.expr function]

/-- Whether the current token begins a function declaration. -/
def atFunction : Parser Bool := do
  if ← atWord "function" then return true
  else if ← atWord "async" then return (← wordAfter) = some "function"
  else return false

/-- An expression as a statement. -/
def expressionStatement (parse : Grammar) : Parser Stmt := do
  let start ← startOffset
  let e ← parse (.expression true)
  semicolon
  return .expression e (← spanFrom start)

/-- The rest of a loop over the values or the keys of an object, after what is assigned to. -/
def iterationRest (parse : Grammar) (head : Part) : Parser Stmt := do
  let source ← do
    if ← eatWord "of" then parse (.assignment true)
    else
      expectWord "in"
      parse (.expression true)
  expect ")"
  let body ← parse .statement
  return .other [head, .expr source, .stmt body]

/-- An expression that may be left out in front of the given mark, which is taken. -/
def optionalExpression (parse : Grammar) (mark : String) : Parser (List Part) := do
  if ← eat mark then return []
  else
    let e ← parse (.expression true)
    expect mark
    return [.expr e]

/-- The rest of a counting loop after the first semicolon of its head. -/
def countingRest (parse : Grammar) (head : List Part) : Parser Stmt := do
  let test ← optionalExpression parse ";"
  let update ← optionalExpression parse ")"
  let body ← parse .statement
  return .other (head ++ test ++ update ++ [.stmt body])

/-- Whether the head of a loop goes on with `of` or `in`. -/
def atIteration : Parser Bool := do
  if ← atWord "of" then return true else atWord "in"

/-- A `for` loop of any kind. -/
def forStatement (parse : Grammar) : Parser Stmt := do
  expectWord "for"
  let _ ← eatWord "await"
  expect "("
  if ← eat ";" then countingRest parse []
  else
    let start ← startOffset
    match ← variableKind? with
    | some kind => do
      advance
      let declared ← declarators parse kind true
      let head := Part.stmt (.variables false declared (← spanFrom start))
      if ← atIteration then iterationRest parse head
      else
        expect ";"
        countingRest parse [head]
    | none => do
      let before ← get
      let e ← parse (.expression false)
      if ← atIteration then
        match e.asTarget? with
        | some target => do
          modify fun state => { state with unclaimedDefault := before.unclaimedDefault }
          iterationRest parse (.expr target)
        | none => failure
      else
        expect ";"
        countingRest parse [.expr e]

/-- A conditional statement. -/
def ifStatement (parse : Grammar) : Parser Stmt := do
  expectWord "if"
  let test ← headExpression parse
  let consequent ← parse .statement
  if ← eatWord "else" then
    let alternate ← parse .statement
    return .other [.expr test, .stmt consequent, .stmt alternate]
  else return .other [.expr test, .stmt consequent]

/-- A loop with its test in front, or any statement with a head expression and a body. -/
def headedStatement (parse : Grammar) (word : String) : Parser Stmt := do
  expectWord word
  let head ← headExpression parse
  let body ← parse .statement
  return .other [.expr head, .stmt body]

/-- A loop with its test behind. -/
def doStatement (parse : Grammar) : Parser Stmt := do
  expectWord "do"
  let body ← parse .statement
  expectWord "while"
  let test ← headExpression parse
  let _ ← eat ";"
  return .other [.stmt body, .expr test]

/-- The statements of one case, up to the next case or the end of the switch. -/
def caseBody (parse : Grammar) : Parser (List Part) :=
  Parser.loop
    (fun (done : List Part) => do
      if ← atWord "case" then return .inr done.reverse
      else if ← atWord "default" then return .inr done.reverse
      else if ← atPunct "\x7d" then return .inr done.reverse
      else
        let next ← parse .statement
        return .inl (.stmt next :: done))
    []

/-- A `switch` statement. -/
def switchStatement (parse : Grammar) : Parser Stmt := do
  expectWord "switch"
  let subject ← headExpression parse
  expect "\x7b"
  Parser.loop
    (fun (done : List Part) => do
      if ← eat "\x7d" then return .inr (Stmt.other done)
      else if ← eatWord "default" then
        expect ":"
        let body ← caseBody parse
        return .inl (done ++ body)
      else
        expectWord "case"
        let test ← parse (.expression true)
        expect ":"
        let body ← caseBody parse
        return .inl (done ++ .expr test :: body))
    [.expr subject]

/-- The handler of a `try` statement; what it catches need not be bound. -/
def catchClause (parse : Grammar) : Parser (List Part) := do
  let bound ← do
    if ← eat "(" then
      let binding ← parse .binding
      expect ")"
      pure (binding.parts.map Part.expr)
    else pure []
  let body ← block parse
  return bound ++ body.map Part.stmt

/-- A `try` statement with a handler, a finalizer, or both. -/
def tryStatement (parse : Grammar) : Parser Stmt := do
  expectWord "try"
  let body ← block parse
  let handled ← do
    if ← eatWord "catch" then
      let parts ← catchClause parse
      pure (some parts)
    else pure none
  let finalized ← do
    if ← eatWord "finally" then
      let statements ← block parse
      pure (some (statements.map Part.stmt))
    else pure none
  if handled.isNone && finalized.isNone then failure
  else return .other (body.map Part.stmt ++ handled.getD [] ++ finalized.getD [])

/-- A `return` statement, which stands in a function. -/
def returnStatement (parse : Grammar) : Parser Stmt := do
  if !(← get).inFunction then failure
  expectWord "return"
  let state ← get
  let bare := match state.token with
    | .punct ";" => true
    | .punct "\x7d" => true
    | .eof => true
    | _ => state.newline
  if bare then
    semicolon
    return .other []
  else
    let value ← parse (.expression true)
    semicolon
    return .returns value

/-- A `throw` statement, whose value stands on the same line. -/
def throwStatement (parse : Grammar) : Parser Stmt := do
  expectWord "throw"
  if (← get).newline then failure
  let value ← parse (.expression true)
  semicolon
  return .other [.expr value]

/-- A jump out of a loop, to a label on the same line or without one. -/
def jumpStatement : Parser Stmt := do
  advance
  let state ← get
  let labelled := match state.token with
    | .name text _ => !state.newline && isVariableName state text
    | _ => false
  if labelled then advance
  semicolon
  return .other []

/-- A string literal, as imports and exports have it. -/
def moduleString : Parser Unit := do
  match (← get).token with
  | .string _ => advance
  | _ => failure

/-- A name or a string in a list of imports or exports. -/
def moduleName : Parser Unit := do
  match (← get).token with
  | .string _ => advance
  | .name _ _ => advance
  | _ => failure

/-- The module that an import or export names, with its attributes. -/
def moduleSource (parse : Grammar) : Parser Unit := do
  moduleString
  if ← eatWord "with" then
    expect "\x7b"
    let _ ← objectLiteral parse 0

/-- A list of names in braces, each perhaps renamed: the names before renaming. -/
def moduleNames : Parser (List (Option (String × Span))) := do
  expect "\x7b"
  Parser.loop
    (fun (done : List (Option (String × Span))) => do
      if ← eat "\x7d" then return .inr done.reverse
      else
        let span ← tokenSpan
        let name := match (← get).token with
          | .name text _ => some (text, span)
          | _ => none
        moduleName
        if ← eatWord "as" then moduleName
        if ← eat "," then return .inl (name :: done)
        else
          expect "\x7d"
          return .inr (name :: done).reverse)
    []

/-- An import that binds everything to one name, or a list of names. -/
def importedNames : Parser Unit := do
  if ← eat "*" then
    expectWord "as"
    let _ ← variableName
  else
    let _ ← moduleNames

/-- An import declaration. -/
def importStatement (parse : Grammar) : Parser Stmt := do
  expectWord "import"
  match (← get).token with
  | .string _ => moduleSource parse
  | .punct _ => do
    importedNames
    expectWord "from"
    moduleSource parse
  | _ => do
    let _ ← variableName
    if ← eat "," then importedNames
    expectWord "from"
    moduleSource parse
  semicolon
  return .other []

/-- What a default export exports. -/
def defaultExport (parse : Grammar) : Parser Stmt := do
  if ← atFunction then functionDeclaration parse false
  else if ← atWord "class" then
    let e ← classExpression parse
    return .other [.expr e]
  else
    let e ← parse (.assignment true)
    semicolon
    return .other [.expr e]

/-- The rest of an export of names. Names of this module are references to its variables; names of
another module are not. -/
def exportedNames (parse : Grammar) : Parser Stmt := do
  let names ← moduleNames
  let isForeign ← eatWord "from"
  if isForeign then moduleSource parse
  semicolon
  if isForeign then return .other []
  else
    return .other (names.filterMap fun name => name.map fun (text, span) => .expr (.ident text span))

/-- An export of everything in another module, perhaps under one name. -/
def exportedModule (parse : Grammar) : Parser Stmt := do
  expect "*"
  if ← eatWord "as" then moduleName
  expectWord "from"
  moduleSource parse
  semicolon
  return .other []

/-- An export declaration. -/
def exportStatement (parse : Grammar) : Parser Stmt := do
  expectWord "export"
  if ← eatWord "default" then defaultExport parse
  else if ← atPunct "\x7b" then exportedNames parse
  else if ← atPunct "*" then exportedModule parse
  else
    match ← variableKind? with
    | some kind => variableStatement parse kind true
    | none =>
      if ← atFunction then functionDeclaration parse true
      else
        expectClass
        let e ← classExpression parse
        return .other [.expr e]
where
  /-- Only a class is left to export. -/
  expectClass : Parser Unit := do
    if ← atWord "class" then pure () else failure

/-- Whether the current token is a label: a name in front of a colon. -/
def atLabel : Parser Bool := do
  let state ← get
  match state.token with
  | .name text _ =>
    if isVariableName state text then return (← punctAfter) = some ":" else return false
  | _ => return false

/-- A statement that begins with a word of the language; `none` for any other word. -/
def wordStatement? (parse : Grammar) (word : String) : Option (Parser Stmt) :=
  match word with
  | "if" => some (ifStatement parse)
  | "for" => some (forStatement parse)
  | "while" => some (headedStatement parse "while")
  | "with" => some (headedStatement parse "with")
  | "do" => some (doStatement parse)
  | "switch" => some (switchStatement parse)
  | "try" => some (tryStatement parse)
  | "return" => some (returnStatement parse)
  | "throw" => some (throwStatement parse)
  | "break" => some jumpStatement
  | "continue" => some jumpStatement
  | "debugger" => some jumpStatement
  | "export" => some (exportStatement parse)
  | "function" => some (functionDeclaration parse true)
  | _ => none

/-- A statement that begins with a word on which more than one rule of the grammar depends, or with
an expression. -/
def plainStatement (parse : Grammar) : Parser Stmt := do
  match ← variableKind? with
  | some kind => variableStatement parse kind false
  | none =>
    if ← atFunction then functionDeclaration parse true
    else if ← atWord "class" then
      let e ← classExpression parse
      return .other [.expr e]
    else if ← atWord "import" then
      match ← punctAfter with
      | some "(" => expressionStatement parse
      | some "." => expressionStatement parse
      | _ => importStatement parse
    else if ← atLabel then
      advance
      advance
      parse .statement
    else expressionStatement parse

/-- Any statement. -/
def statement (parse : Grammar) : Parser Stmt := do
  match (← get).token with
  | .punct "\x7b" => do
    let statements ← block parse
    return .other (statements.map Part.stmt)
  | .punct ";" => do
    advance
    return .other []
  | .name word false =>
    match wordStatement? parse word with
    | some known => known
    | none => plainStatement parse
  | _ => plainStatement parse

/-- The statements of a program, up to its end. -/
def programBody (parse : Grammar) : Parser (List Stmt) :=
  Parser.loop
    (fun (done : List Stmt) => do
      match (← get).token with
      | .eof => return .inr done.reverse
      | _ => do
        let next ← parse .statement
        return .inl (next :: done))
    []

end ClassFactory.Script
