/-
Module: ClassFactory.Types.Reader
Purpose: Reading type expressions of documentation comments. A reading works on the characters that
  are left; when it fails it leaves them where it got stuck, because what stands there still decides
  whether a parameter is optional. A malformed expression denotes the unconstrained type.
Main exports: Reading, DeclaredType, readDeclaredType, readType
-/
import ClassFactory.Text.Blank
import ClassFactory.Text.Letters
import ClassFactory.Text.Search
import ClassFactory.Types.Union

namespace ClassFactory

/-- A step that takes characters from the front of a text and may fail on the way. -/
abbrev Reading := OptionT (StateM (List Char))

namespace Reading

/-- Skips white space. -/
def skipBlanks : Reading Unit :=
  modify Text.trimStart

/-- The next character, which stays in place; fails at the end. -/
def peek : Reading Char := do
  match ← get with
  | c :: _ => pure c
  | [] => failure

/-- Takes a token if it comes next. -/
def eat (token : String) : Reading Bool := do
  match Text.dropStart? token.toList (← get) with
  | some rest => do
    set rest
    pure true
  | none => pure false

/-- Takes a token after optional white space, or fails in front of it. -/
def expect (token : String) : Reading Unit := do
  skipBlanks
  if ← eat token then pure () else failure

/-- Whether a character may stand in a type name; a period may not stand first. -/
def isNameCharacter (first : Bool) (c : Char) : Bool :=
  Text.isAlphanumeric c || c = '_' || c = '$' || (c = '.' && !first)

/-- The longest name at the front of a text and what follows it. A period in front of an opening
angle bracket belongs to the bracket. -/
def splitName : Bool → List Char → List Char × List Char
  | _, [] => ([], [])
  | first, c :: cs =>
    if isNameCharacter first c && !(c = '.' && cs.head? = some '<') then
      let (name, rest) := splitName false cs
      (c :: name, rest)
    else ([], c :: cs)

/-- A name after optional white space. -/
def name : Reading String := do
  skipBlanks
  let (name, rest) := splitName true (← get)
  if name.isEmpty then failure
  else
    set rest
    pure (String.ofList name)

/-- A string literal in the given quotes, without escapes. -/
def quoted (quote : Char) : Reading String := do
  modify (·.drop 1)
  let text ← get
  match text.dropWhile (· ≠ quote) with
  | _ :: rest => do
    set rest
    pure (String.ofList (text.takeWhile (· ≠ quote)))
  | [] => failure

/-- The type a name with type arguments denotes; of several arguments the last one counts. -/
def namedType (name : String) (args : List Ty) : Ty :=
  match name with
  | "number" => .number
  | "string" => .string
  | "boolean" => .boolean
  | "symbol" => .primitive .symbol
  | "null" => .null
  | "undefined" => .undefined
  | "void" => .undefined
  | "Function" => .anyFunction
  | "Array" => .array (args.getLastD .unknown)
  | "Object" =>
    match args.getLast? with
    | some value => .map value
    | none => .anyObject
  | "ReactElement" =>
    match args.getLast? with
    | some (.named component) => .element (some component)
    | _ => .element none
  | "ReactChild" => .renderable
  | "ReactNode" => .renderable
  | other => .named other

/-- Whether a question mark in front of this character stands for a whole type. -/
def endsType (c : Char) : Bool :=
  c = ',' || c = ')' || c = '>' || c = '}' || c = '|' || c = '='

/-- Takes the word `this` or `new` with a colon right after it, in front of the type of a
function's receiver. -/
def receiverMark : Reading Bool := do
  let start ← get
  match name.run start with
  | (some word, rest) =>
    match Text.dropStart? [':'] rest with
    | some rest =>
      if word = "this" || word = "new" then do
        set rest
        pure true
      else pure false
    | none => pure false
  | (none, _) => pure false

/-- The opening of a list of type arguments. A period may stand in front of the bracket. -/
def argumentsMark : Reading Bool := do
  skipBlanks
  if ← eat ".<" then pure true else eat "<"

mutual
/-- Alternatives separated by bars. The budget, here and below, bounds the nesting of calls. -/
def unionType : Nat → Reading Ty
  | 0 => failure
  | budget + 1 => do
    let first ← prefixedType budget
    alternatives budget [first]

/-- Further alternatives after those read so far. -/
def alternatives : Nat → List Ty → Reading Ty
  | 0, _ => failure
  | budget + 1, members => do
    skipBlanks
    if ← eat "|" then
      let next ← prefixedType budget
      alternatives budget (members ++ [next])
    else pure (Ty.join members)

/-- A type with a mark in front: `!` changes nothing, `?` adds `null` or stands for the
unconstrained type. -/
def prefixedType : Nat → Reading Ty
  | 0 => failure
  | budget + 1 => do
    skipBlanks
    if ← eat "!" then primaryType budget
    else if ← eat "?" then
      skipBlanks
      match ← get with
      | [] => pure .unknown
      | c :: _ =>
        if endsType c then pure .unknown
        else
          let type ← primaryType budget
          pure type.nullable
    else primaryType budget

/-- A parenthesized type, a record, a literal, a function or a name. -/
def primaryType : Nat → Reading Ty
  | 0 => failure
  | budget + 1 => do
    skipBlanks
    let c ← peek
    if c = '(' then
      modify (·.drop 1)
      let type ← unionType budget
      expect ")"
      pure type
    else if c = '{' then
      modify (·.drop 1)
      recordFields budget []
    else if c = '*' then
      modify (·.drop 1)
      pure .unknown
    else if c = '"' || c = '\x27' then
      let text ← quoted c
      pure (.literal (.string text))
    else
      let word ← name
      if word = "function" then
        expect "("
        functionParams budget []
      else if ← argumentsMark then
        let args ← typeArguments budget []
        pure (namedType word args)
      else pure (namedType word [])

/-- The fields of a record up to its closing brace. A field without a type may be absent, and so
may one marked with `=` or one that admits `null` or `undefined`. -/
def recordFields : Nat → List Field → Reading Ty
  | 0, _ => failure
  | budget + 1, fields => do
    skipBlanks
    if ← eat "\x7d" then pure (.record fields)
    else
      let key ← name
      skipBlanks
      let field ←
        if ← eat ":" then
          let type ← unionType budget
          skipBlanks
          let marked ← eat "="
          pure (Field.mk key type (marked || type.admitsNullish))
        else pure (Field.mk key .unknown true)
      let fields := Fields.insert field fields
      skipBlanks
      if ← eat "," then recordFields budget fields
      else
        expect "\x7d"
        pure (.record fields)

/-- The parameters of a function up to its closing parenthesis, and its result. Parameters are
named by position; the type of a receiver is read and dropped. -/
def functionParams : Nat → List Param → Reading Ty
  | 0, _ => failure
  | budget + 1, params => do
    skipBlanks
    if ← eat ")" then functionResult budget params
    else if ← receiverMark then
      let _ ← unionType budget
      skipBlanks
      if ← eat "," then functionParams budget params
      else
        expect ")"
        functionResult budget params
    else
      let rest ← eat "..."
      let type ← unionType budget
      skipBlanks
      let optional ← eat "="
      let params := params ++ [Param.mk ("p" ++ toString params.length) type optional rest]
      skipBlanks
      if ← eat "," then functionParams budget params
      else
        expect ")"
        functionResult budget params

/-- The result type after a colon; unconstrained without one. -/
def functionResult : Nat → List Param → Reading Ty
  | 0, _ => failure
  | budget + 1, params => do
    skipBlanks
    if ← eat ":" then
      let returns ← prefixedType budget
      pure (.function params returns)
    else pure (.function params .unknown)

/-- Type arguments up to the closing angle bracket, at least one. -/
def typeArguments : Nat → List Ty → Reading (List Ty)
  | 0, _ => failure
  | budget + 1, args => do
    let type ← unionType budget
    let args := args ++ [type]
    skipBlanks
    if ← eat ">" then pure args
    else
      expect ","
      typeArguments budget args
end

/-- A budget that no expression of that many characters exhausts: at most five calls nest between
one character taken and the next. -/
def budgetFor (cs : List Char) : Nat :=
  5 * cs.length + 10

end Reading

/-- A type with the marks that a parameter or a record field may carry. -/
structure DeclaredType where
  type : Ty
  /-- Marked with `=`. -/
  optional : Bool
  /-- Marked with `...`. -/
  rest : Bool
deriving Inhabited

/-- Reads a type expression with its marks. Text left over makes the type unconstrained and keeps
the marks. -/
def readDeclaredType (text : String) : DeclaredType :=
  let cs := Text.trimStart text.toList
  let (rest, cs) := match Text.dropStart? ['.', '.', '.'] cs with
    | some after => (true, after)
    | none => (false, cs)
  let (type, cs) := (Reading.unionType (Reading.budgetFor cs)).run cs
  let cs := Text.trimStart cs
  let (optional, cs) := match cs with
    | '=' :: after => (true, Text.trimStart after)
    | _ => (false, cs)
  { type := if cs.isEmpty then type.getD .unknown else .unknown, optional := optional, rest := rest }

/-- Reads a type expression. -/
def readType (text : String) : Ty :=
  (readDeclaredType text).type

end ClassFactory
