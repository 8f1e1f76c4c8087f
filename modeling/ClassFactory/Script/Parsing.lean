/-
Module: ClassFactory.Script.Parsing
Purpose: The state of a parse and the steps every part of the grammar is made of. The state stands
  in front of one token, scanned ahead; inside the text of elements and templates it stands at a
  bare place until `settle` looks for a token again. Parts of the grammar call each other through a
  table of goals, so that each part is a definition of its own.
Main exports: ParseState, Parser, Goal, Grammar, Parser.loop, settle, advance, expect, semicolon
-/
import ClassFactory.Script.Token
import ClassFactory.Script.Tree

namespace ClassFactory.Script

/-- The state of a parse. -/
structure ParseState where
  /-- Where the current token begins. -/
  cursor : Cursor
  /-- The current token; invalid at a bare place. -/
  token : Token
  /-- The place after the current token. -/
  after : Cursor
  /-- Whether a line ends in front of the current token. -/
  newline : Bool
  /-- Where the token before the current one ends. -/
  lastEnd : Nat
  /-- The comments met so far, the latest first. -/
  comments : List Span
  /-- Whether an object literal with a default for a shorthand has not become a pattern yet. -/
  unclaimedDefault : Bool
  inFunction : Bool
  /-- Whether `await` is an operator here. -/
  awaits : Bool
  /-- Whether `yield` is an operator here. -/
  yields : Bool
  /-- More than the number of characters of the source: a bound for every loop. -/
  budget : Nat
deriving Inhabited

/-- A part of the grammar: takes tokens, or fails. -/
abbrev Parser := StateT ParseState Option

/-- The parts of the grammar that others call. -/
inductive Goal where
  /-- Expressions separated by commas; `in` is an operator if `allowIn` holds. -/
  | expression (allowIn : Bool)
  /-- One expression without a comma. -/
  | assignment (allowIn : Bool)
  /-- Operands and operators of at least the given precedence. -/
  | binary (allowIn : Bool) (precedence : Nat)
  | unary
  /-- What may follow `new`: members, but no calls. -/
  | constructee
  | binding
  | statement
  /-- An element or a fragment; inside another one, the state is left at a bare place. -/
  | element (nested : Bool)

/-- What a goal yields. -/
abbrev Goal.Result : Goal → Type
  | .binding => Binding
  | .statement => Stmt
  | _ => Expr

/-- A parser for every goal. -/
abbrev Grammar := (goal : Goal) → Parser goal.Result

namespace Parser

/-- Repeats a step until it yields a result. The budget bounds the number of rounds. -/
def loopFor {α β : Type} (step : α → Parser (α ⊕ β)) : Nat → α → Parser β
  | 0, _ => failure
  | budget + 1, a => do
    match ← step a with
    | .inl next => loopFor step budget next
    | .inr result => pure result

/-- Repeats a step that takes at least one character in each round until it yields a result. -/
def loop {α β : Type} (step : α → Parser (α ⊕ β)) (a : α) : Parser β := do
  loopFor step (← get).budget a

/-- The result of a parser that may fail, in which case nothing is taken. -/
def attempt {α : Type} (parser : Parser α) : Parser (Option α) := fun state =>
  match parser.run state with
  | some (a, next) => some (some a, next)
  | none => some (none, state)

/-- Runs a parser and then forgets all it did. -/
def lookAhead {α : Type} (parser : Parser α) : Parser α := fun state =>
  (parser.run state).map fun (a, _) => (a, state)

end Parser

/-- Skips white space and comments at a bare place and scans the token after them. -/
def settle : Parser Unit := do
  let state ← get
  let start : Trivia := { newline := false, comments := state.comments, cursor := state.cursor }
  match skipTrivia state.budget start with
  | some trivia =>
    let (token, after) := scanToken trivia.cursor
    set { state with cursor := trivia.cursor, token := token, after := after,
                     newline := trivia.newline, comments := trivia.comments }
  | none => set { state with token := .invalid, after := state.cursor }

/-- Moves to a bare place that ends what was taken. -/
def moveTo (cursor : Cursor) : Parser Unit :=
  modify fun state =>
    { state with cursor := cursor, token := .invalid, after := cursor, lastEnd := cursor.offset }

/-- Takes the current token. -/
def advance : Parser Unit := do
  moveTo (← get).after
  settle

/-- Takes one character and stops at a bare place, if it is the one expected. -/
def takeChar (c : Char) : Parser Unit := do
  let cursor := (← get).cursor
  if cursor.head? = some c then moveTo (cursor.skip 1) else failure

/-- Whether the source continues with this character. -/
def atChar (c : Char) : Parser Bool := do
  return (← get).cursor.head? = some c

/-- Where the current token begins. -/
def startOffset : Parser Nat := do
  return (← get).cursor.offset

/-- The range from an earlier place to the end of the token before the current one. -/
def spanFrom (start : Nat) : Parser Span := do
  return { start := start, stop := (← get).lastEnd }

/-- The range of the current token. -/
def tokenSpan : Parser Span := do
  let state ← get
  return { start := state.cursor.offset, stop := state.after.offset }

/-- Whether the current token is this punctuation mark. -/
def atPunct (mark : String) : Parser Bool := do
  match (← get).token with
  | .punct text => return text = mark
  | _ => return false

/-- Whether the current token is one of these punctuation marks. -/
def atAnyPunct (marks : List String) : Parser Bool := do
  match (← get).token with
  | .punct text => return marks.contains text
  | _ => return false

/-- Whether the current token is this word, written without escapes. -/
def atWord (word : String) : Parser Bool := do
  match (← get).token with
  | .name text false => return text = word
  | _ => return false

/-- Takes a punctuation mark if it comes next. -/
def eat (mark : String) : Parser Bool := do
  if ← atPunct mark then
    advance
    return true
  else return false

/-- Takes a word if it comes next. -/
def eatWord (word : String) : Parser Bool := do
  if ← atWord word then
    advance
    return true
  else return false

/-- Takes a punctuation mark or fails. -/
def expect (mark : String) : Parser Unit := do
  if ← eat mark then pure () else failure

/-- Takes a word or fails. -/
def expectWord (word : String) : Parser Unit := do
  if ← eatWord word then pure () else failure

/-- The end of a statement: a semicolon, or a place where none is needed. -/
def semicolon : Parser Unit := do
  if ← eat ";" then pure ()
  else
    let state ← get
    match state.token with
    | .punct "\x7d" => pure ()
    | .eof => pure ()
    | _ => if state.newline then pure () else failure

/-- Words that no variable may be called. -/
def reservedWords : List String :=
  ["break", "case", "catch", "class", "const", "continue", "debugger", "default", "delete", "do",
   "else", "enum", "export", "extends", "false", "finally", "for", "function", "if", "import", "in",
   "instanceof", "new", "null", "return", "super", "switch", "this", "throw", "true", "try",
   "typeof", "var", "void", "while", "with"]

/-- Whether a name may be the name of a variable here. -/
def isVariableName (state : ParseState) (name : String) : Bool :=
  !reservedWords.contains name && !(name = "await") && !(state.yields && name = "yield")

/-- The name of a variable, and where it stands. -/
def variableName : Parser (String × Span) := do
  let state ← get
  match state.token with
  | .name text _ =>
    if isVariableName state text then
      let span ← tokenSpan
      advance
      return (text, span)
    else failure
  | _ => failure

/-- Any name, words of the language included, and where it stands. -/
def anyName : Parser (String × Span) := do
  match (← get).token with
  | .name text _ =>
    let span ← tokenSpan
    advance
    return (text, span)
  | _ => failure

/-- The word after the current token, if it is one on the same line. -/
def wordAfter : Parser (Option String) :=
  Parser.lookAhead do
    advance
    let state ← get
    match state.token with
    | .name text _ => return if state.newline then none else some text
    | _ => return none

/-- The punctuation mark after the current token. -/
def punctAfter : Parser (Option String) :=
  Parser.lookAhead do
    advance
    match (← get).token with
    | .punct text => return some text
    | _ => return none

/-- Runs a parser with other settings for what `await`, `yield` and `return` mean, and then goes
back to those before. -/
def withSettings {α : Type} (inFunction awaits yields : Bool) (parser : Parser α) : Parser α := do
  let before ← get
  set { before with inFunction := inFunction, awaits := awaits, yields := yields }
  let result ← parser
  modify fun state =>
    { state with inFunction := before.inFunction, awaits := before.awaits,
                 yields := before.yields }
  return result

end ClassFactory.Script
