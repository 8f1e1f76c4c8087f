/-
Module: ClassFactory.Script.Expressions
Purpose: The grammar of expressions: primaries, members and calls with optional chains, operators by
  precedence, arrow functions and assignments.
Main exports: primary, leftHandSide, unaryExpression, binaryExpression, assignmentExpression,
  commaExpression
-/
import ClassFactory.Script.Functions

namespace ClassFactory.Script

/-- The embedded expressions of a template, after the place where its text begins. -/
def templateParts (parse : Grammar) (text : Cursor) : Parser (List Expr) :=
  Parser.loop
    (fun (scan : List Expr × Cursor) => do
      match scanTemplateChunk (← get).budget scan.2 with
      | some (true, close) => do
        moveTo close
        settle
        return .inr scan.1.reverse
      | some (false, embedded) => do
        moveTo embedded
        settle
        let part ← parse (.expression true)
        if ← atPunct "\x7d" then return .inl (part :: scan.1, (← get).after)
        else failure
      | none => failure)
    ([], text)

/-- A template at its opening quote. -/
def templateLiteral (parse : Grammar) : Parser Expr := do
  let start ← startOffset
  let parts ← templateParts parse (← get).after
  return .template parts (← spanFrom start)

/-- Arguments of a call in parentheses. -/
def arguments (parse : Grammar) : Parser (List Item) := do
  expect "("
  Parser.loop
    (fun (done : List Item) => do
      if ← eat ")" then return .inr done.reverse
      else
        let start ← startOffset
        let next ← do
          if ← eat "..." then
            let e ← parse (.assignment true)
            pure (Item.spread e (← spanFrom start))
          else
            let e ← parse (.assignment true)
            pure (Item.value e)
        if ← eat "," then return .inl (next :: done)
        else
          expect ")"
          return .inr (next :: done).reverse)
    []

/-- An array literal after its bracket, which stands at `start`. -/
def arrayLiteral (parse : Grammar) (start : Nat) : Parser Expr :=
  Parser.loop
    (fun (done : List Item) => do
      if ← eat "]" then return .inr (Expr.array done.reverse (← spanFrom start))
      else if ← eat "," then return .inl (.hole :: done)
      else
        let place ← startOffset
        let next ← do
          if ← eat "..." then
            let e ← parse (.assignment true)
            pure (Item.spread e (← spanFrom place))
          else
            let e ← parse (.assignment true)
            pure (Item.value e)
        if ← eat "," then return .inl (next :: done)
        else
          expect "]"
          return .inr (Expr.array (next :: done).reverse (← spanFrom start)))
    []

/-- A regular expression at its opening slash. -/
def regexLiteral : Parser Expr := do
  let start ← startOffset
  match scanRegex ((← get).cursor.skip 1) with
  | some close => do
    moveTo close
    settle
    return .regex (← spanFrom start)
  | none => failure

/-- A call of `import`, or a property of it. -/
def importExpression (parse : Grammar) : Parser Expr := do
  let start ← startOffset
  expectWord "import"
  if ← eat "." then
    let _ ← anyName
    return emptyExpr (← spanFrom start)
  else
    let args ← arguments parse
    let parts := args.filterMap fun item => item.value?.map Part.expr
    return .other false parts (← spanFrom start)

/-- The question whether an object has a private member. -/
def hiddenMembership (parse : Grammar) : Parser Expr := do
  let start ← startOffset
  advance
  expectWord "in"
  let owner ← parse (.binary true 9)
  return .other false [.expr owner] (← spanFrom start)

/-- An expression that begins with a name or a word of the language. -/
def wordExpression (parse : Grammar) (word : String) (escaped : Bool) : Parser Expr := do
  let span ← tokenSpan
  if !escaped && word = "async" && (← wordAfter) = some "function" then
    advance
    functionExpression parse span.start true
  else if isVariableName (← get) word then
    advance
    return .ident word span
  else if escaped then failure
  else
    match word with
    | "this" => do
      advance
      return .this span
    | "null" => do
      advance
      return .null span
    | "true" => do
      advance
      return .bool true span
    | "false" => do
      advance
      return .bool false span
    | "super" => do
      advance
      return emptyExpr span
    | "function" => functionExpression parse span.start false
    | "class" => classExpression parse
    | "import" => importExpression parse
    | _ => failure

/-- An expression that is not made of smaller ones by operators. -/
def primary (parse : Grammar) : Parser Expr := do
  let span ← tokenSpan
  match (← get).token with
  | .name word escaped => wordExpression parse word escaped
  | .string value => do
    advance
    return .string value span
  | .number value => do
    advance
    return .number value span
  | .bigint => do
    advance
    return emptyExpr span
  | .template => templateLiteral parse
  | .hidden _ => hiddenMembership parse
  | .punct "(" => do
    advance
    let inner ← parse (.expression true)
    expect ")"
    return .paren inner (← spanFrom span.start)
  | .punct "[" => do
    advance
    arrayLiteral parse span.start
  | .punct "\x7b" => do
    advance
    objectLiteral parse span.start
  | .punct "/" => regexLiteral
  | .punct "/=" => regexLiteral
  | .punct "<" => parse (.element false)
  | _ => failure

/-- The member of an expression after its period. -/
def memberAfter (owner : Expr) : Parser Expr := do
  let start := owner.span.start
  match (← get).token with
  | .hidden _ => do
    advance
    return .other true [.expr owner] (← spanFrom start)
  | _ => do
    let (property, span) ← anyName
    return .member owner property span (← spanFrom start)

/-- The computed member of an expression after its bracket. -/
def indexAfter (parse : Grammar) (owner : Expr) : Parser Expr := do
  let key ← parse (.expression true)
  expect "]"
  return .other true [.expr owner, .expr key] (← spanFrom owner.span.start)

/-- A template called with a function, the tag. -/
def taggedTemplate (parse : Grammar) (tag : Expr) : Parser Expr := do
  let template ← templateLiteral parse
  return .other false [.expr tag, .expr template] (← spanFrom tag.span.start)

/-- One more link of a chain of members and calls: the longer expression, and whether the link is an
optional one; `none` at the end of the chain. -/
def link (parse : Grammar) (e : Expr) : Parser (Option (Expr × Bool)) := do
  if ← eat "." then return some (← memberAfter e, false)
  else if ← eat "[" then return some (← indexAfter parse e, false)
  else if ← atPunct "(" then
    let args ← arguments parse
    return some (.call e args (← spanFrom e.span.start), false)
  else if ← eat "?." then
    if ← eat "[" then return some (← indexAfter parse e, true)
    else if ← atPunct "(" then
      let args ← arguments parse
      return some (.call e args (← spanFrom e.span.start), true)
    else return some (← memberAfter e, true)
  else
    match (← get).token with
    | .template => return some (← taggedTemplate parse e, false)
    | _ => return none

/-- Members of an expression, without calls and optional links. -/
def constructeeLinks (parse : Grammar) (e : Expr) : Parser Expr :=
  Parser.loop
    (fun (e : Expr) => do
      if ← eat "." then return .inl (← memberAfter e)
      else if ← eat "[" then return .inl (← indexAfter parse e)
      else
        match (← get).token with
        | .template => return .inl (← taggedTemplate parse e)
        | _ => return .inr e)
    e

/-- The word `new`: a construction, or the property `target` of the word itself. -/
def newExpression (parse : Grammar) : Parser Expr := do
  let start ← startOffset
  expectWord "new"
  if ← eat "." then
    expectWord "target"
    return emptyExpr (← spanFrom start)
  else
    let callee ← parse .constructee
    let args ← do
      if ← atPunct "(" then arguments parse else pure []
    return .construct callee args (← spanFrom start)

/-- What is constructed: another construction, or a primary with its members. -/
def constructeeExpression (parse : Grammar) : Parser Expr := do
  let first ← do
    if ← atWord "new" then newExpression parse else primary parse
  constructeeLinks parse first

/-- An expression with its members and calls. One that holds an optional link is wrapped, since it
may yield nothing at all. -/
def leftHandSide (parse : Grammar) : Parser Expr := do
  let start ← startOffset
  let first ← do
    if ← atWord "new" then newExpression parse else primary parse
  Parser.loop
    (fun (chain : Expr × Bool) => do
      match ← link parse chain.1 with
      | some (longer, isOptional) => return .inl (longer, chain.2 || isOptional)
      | none =>
        if chain.2 then return .inr (Expr.other false [.expr chain.1] (← spanFrom start))
        else return .inr chain.1)
    (first, false)

/-- The target of `++` or `--` as an expression. -/
def updated (target : Expr) (start : Nat) : Parser Expr := do
  match target.asSimpleTarget? with
  | some target => return .other false [.expr target] (← spanFrom start)
  | none => failure

/-- The operator in front of an operand, if the current token is one. -/
def unaryOperator? (state : ParseState) : Option UnaryOp :=
  match state.token with
  | .punct "-" => some .negate
  | .punct "+" => some .plus
  | .punct "~" => some .bitNot
  | .punct "!" => some .not
  | .name "typeof" false => some .typeof
  | .name "void" false => some .void
  | .name "delete" false => some .delete
  | _ => none

/-- Operators in front of one operand, and `++` and `--` on either side. A power needs its base in
parentheses if that begins with an operator. -/
def unaryExpression (parse : Grammar) : Parser Expr := do
  let start ← startOffset
  let state ← get
  match unaryOperator? state with
  | some op => do
    advance
    let operand ← parse .unary
    if ← atPunct "**" then failure
    else return .unary op operand (← spanFrom start)
  | none =>
    if ← atAnyPunct ["++", "--"] then
      advance
      updated (← parse .unary) start
    else if state.awaits && (← atWord "await") then
      advance
      let operand ← parse .unary
      return .other false [.expr operand] (← spanFrom start)
    else
      let e ← leftHandSide parse
      let sameLine := !(← get).newline
      if sameLine && (← atAnyPunct ["++", "--"]) then
        advance
        updated e start
      else return e

/-- What an operator between two operands does. -/
inductive Operation where
  | binary (op : BinaryOp)
  /-- Evaluates its right operand only if need be. -/
  | logical

/-- The precedence and the operation of the operator that the current token is. -/
def binaryOperator? (allowIn : Bool) (token : Token) : Option (Nat × Operation) :=
  match token with
  | .punct "??" => some (1, .logical)
  | .punct "||" => some (2, .logical)
  | .punct "&&" => some (3, .logical)
  | .punct "|" => some (4, .binary .arithmetic)
  | .punct "^" => some (5, .binary .arithmetic)
  | .punct "&" => some (6, .binary .arithmetic)
  | .punct "==" => some (7, .binary .compare)
  | .punct "!=" => some (7, .binary .compare)
  | .punct "===" => some (7, .binary .compare)
  | .punct "!==" => some (7, .binary .compare)
  | .punct "<" => some (8, .binary .compare)
  | .punct ">" => some (8, .binary .compare)
  | .punct "<=" => some (8, .binary .compare)
  | .punct ">=" => some (8, .binary .compare)
  | .name "instanceof" false => some (8, .binary .compare)
  | .name "in" false => if allowIn then some (8, .binary .compare) else none
  | .punct "<<" => some (9, .binary .arithmetic)
  | .punct ">>" => some (9, .binary .arithmetic)
  | .punct ">>>" => some (9, .binary .arithmetic)
  | .punct "+" => some (10, .binary .add)
  | .punct "-" => some (10, .binary .arithmetic)
  | .punct "*" => some (11, .binary .arithmetic)
  | .punct "/" => some (11, .binary .arithmetic)
  | .punct "%" => some (11, .binary .arithmetic)
  | .punct "**" => some (12, .binary .arithmetic)
  | _ => none

/-- The precedence that the right operand of an operator must have: powers group to the right, all
others to the left. -/
def rightPrecedence (precedence : Nat) : Nat :=
  if precedence = 12 then 12 else precedence + 1

/-- Operands joined by operators of at least the given precedence. -/
def binaryExpression (parse : Grammar) (allowIn : Bool) (least : Nat) : Parser Expr := do
  let first ← parse .unary
  Parser.loop
    (fun (left : Expr) => do
      match binaryOperator? allowIn (← get).token with
      | some (precedence, operation) =>
        if precedence < least then return .inr left
        else
          advance
          let right ← parse (.binary allowIn (rightPrecedence precedence))
          let span ← spanFrom left.span.start
          match operation with
          | .binary op => return .inl (Expr.binary op left right span)
          | .logical => return .inl (Expr.other false [.expr left, .expr right] span)
      | none => return .inr left)
    first

/-- An expression with at most a condition. -/
def conditionalExpression (parse : Grammar) (allowIn : Bool) : Parser Expr := do
  let test ← parse (.binary allowIn 0)
  if ← eat "?" then
    let consequent ← parse (.assignment true)
    expect ":"
    let alternate ← parse (.assignment allowIn)
    return .conditional test consequent alternate (← spanFrom test.span.start)
  else return test

/-- The parameters of an arrow function up to and including its arrow, which stands on the line
where they end. A single name needs no parentheses. -/
def arrowParameters (parse : Grammar) : Parser (List Parameter) := do
  let params ← do
    if ← atPunct "(" then parameterList parse
    else
      let (name, span) ← variableName
      pure [Parameter.plain (.name name span)]
  if (← get).newline then failure
  else
    expect "=>"
    return params

/-- The head of an arrow function: whether it is asynchronous, and its parameters. -/
def arrowHead (parse : Grammar) : Parser (Bool × List Parameter) := do
  let asynchronous : Parser (List Parameter) := do
    expectWord "async"
    if (← get).newline then failure
    else withSettings true true false (arrowParameters parse)
  match ← Parser.attempt asynchronous with
  | some params => return (true, params)
  | none => return (false, ← arrowParameters parse)

/-- The body of an arrow function: statements in braces, or one expression. -/
def arrowBody (parse : Grammar) (allowIn : Bool) : Parser (Bool × List Stmt) := do
  if ← atPunct "\x7b" then return (false, ← functionBody parse)
  else
    let e ← parse (.assignment allowIn)
    return (true, [.expression e e.span])

/-- The word `yield`, with the value it hands out, if it has one. -/
def yieldExpression (parse : Grammar) (allowIn : Bool) : Parser Expr := do
  let start ← startOffset
  expectWord "yield"
  let state ← get
  let bare := match state.token with
    | .punct mark => [")", "]", "\x7d", ",", ";", ":"].contains mark
    | .eof => true
    | .name "in" false => true
    | .name "of" false => true
    | _ => false
  if state.newline || bare then return emptyExpr (← spanFrom start)
  else
    let _ ← eat "*"
    let value ← parse (.assignment allowIn)
    return .other false [.expr value] (← spanFrom start)

/-- The operators that assign, apart from `=`. -/
def compoundAssignments : List String :=
  ["+=", "-=", "*=", "/=", "%=", "**=", "<<=", ">>=", ">>>=", "&=", "|=", "^=", "&&=", "||=", "??="]

/-- An expression without a comma: an arrow function, an assignment or a condition. -/
def assignmentExpression (parse : Grammar) (allowIn : Bool) : Parser Expr := do
  let start ← startOffset
  let before ← get
  if before.yields && (← atWord "yield") then yieldExpression parse allowIn
  else
    match ← Parser.attempt (arrowHead parse) with
    | some (isAsync, params) =>
      let (concise, body) ← withSettings true isAsync false (arrowBody parse allowIn)
      return .arrow params concise body (← spanFrom start)
    | none =>
      let left ← conditionalExpression parse allowIn
      if ← eat "=" then
        match left.asTarget? with
        | some target => do
          modify fun state => { state with unclaimedDefault := before.unclaimedDefault }
          let value ← parse (.assignment allowIn)
          return .assign target value (← spanFrom start)
        | none => failure
      else if ← atAnyPunct compoundAssignments then
        match left.asSimpleTarget? with
        | some target => do
          advance
          let value ← parse (.assignment allowIn)
          return .assign target value (← spanFrom start)
        | none => failure
      else return left

/-- Expressions separated by commas; a single one stands for itself. -/
def commaExpression (parse : Grammar) (allowIn : Bool) : Parser Expr := do
  let first ← parse (.assignment allowIn)
  Parser.loop
    (fun (done : List Expr) => do
      if ← eat "," then
        let next ← parse (.assignment allowIn)
        return .inl (next :: done)
      else
        match done with
        | [e] => return .inr e
        | _ =>
          let span ← spanFrom first.span.start
          return .inr (Expr.other false (done.reverse.map Part.expr) span))
    [first]

end ClassFactory.Script
