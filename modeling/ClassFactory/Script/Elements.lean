/-
Module: ClassFactory.Script.Elements
Purpose: The grammar of elements and fragments. Text and quoted attribute values are kept as they
  are written. Between a tag and its end the tokens are those of expressions; between tags there is
  text, in which the state stands at bare places.
Main exports: elementExpression
-/
import ClassFactory.Script.Parsing

namespace ClassFactory.Script

/-- A name that may hold hyphens, and where it stands. -/
def hyphenatedName : Parser (String × Span) := do
  let state ← get
  match state.token with
  | .name _ _ => do
    let (name, close) := state.cursor.takeWhile fun c => continuesName c || c = '-'
    moveTo close
    settle
    return (String.ofList name, { start := state.cursor.offset, stop := close.offset })
  | _ => failure

/-- Whether a tag of one name refers to a variable: it begins with no small ASCII letter and holds no
hyphen. -/
def refersToVariable (name : String) : Bool :=
  match name.toList with
  | c :: cs => !('a' ≤ c && c ≤ 'z') && !(c :: cs).contains '-'
  | [] => false

/-- The members of a tag after its first name. The text of the tag goes along, to be compared with
that of the closing tag. -/
def tagMembers (start : Nat) (first : Tag × String) : Parser (Tag × String) :=
  Parser.loop
    (fun (tag : Tag × String) => do
      if ← eat "." then
        let (property, span) ← hyphenatedName
        let longer := Tag.member tag.1 property { start := start, stop := span.stop }
        return .inl (longer, tag.2 ++ "." ++ property)
      else return .inr tag)
    first

/-- The name of an element with its text. -/
def tagName : Parser (Tag × String) := do
  let (name, span) ← hyphenatedName
  if ← atChar ':' then
    takeChar ':'
    settle
    let (inner, _) ← hyphenatedName
    return (.plain, name ++ ":" ++ inner)
  else if ← atPunct "." then
    let first := if name = "this" then Tag.this else Tag.reference name span
    tagMembers span.start (first, name)
  else if name = "this" then return (.plain, name)
  else if refersToVariable name then return (.reference name span, name)
  else return (.plain, name)

/-- A quoted attribute value as it is written. -/
def quotedValue (quote : Char) : Parser Expr := do
  let cursor := (← get).cursor
  let (text, close) := (cursor.skip 1).takeWhile (· ≠ quote)
  match close.head? with
  | some _ => do
    moveTo (close.skip 1)
    settle
    return .string (String.ofList text) (← spanFrom cursor.offset)
  | none => failure

/-- The value of an attribute after its sign of equality: a quoted text, an expression in braces, or
an element. -/
def attributeValue (parse : Grammar) : Parser Expr := do
  let start ← startOffset
  match (← get).cursor.head? with
  | some '"' => quotedValue '"'
  | some '\x27' => quotedValue '\x27'
  | some '{' => do
    advance
    if ← eat "\x7d" then return .other false [] (← spanFrom start)
    else
      let e ← parse (.assignment true)
      expect "\x7d"
      return e
  | some '<' => parse (.element false)
  | _ => failure

/-- One attribute. Without a value it has the value `true`. -/
def givenAttribute (parse : Grammar) : Parser Attribute := do
  let start ← startOffset
  if ← eat "\x7b" then
    expect "..."
    let e ← parse (.assignment true)
    expect "\x7d"
    return .spread e
  else
    let (name, span) ← hyphenatedName
    let foreign ← do
      if ← atChar ':' then
        takeChar ':'
        settle
        let _ ← hyphenatedName
        pure true
      else pure false
    let value ← do
      if ← atChar '=' then
        takeChar '='
        settle
        attributeValue parse
      else pure (.bool true span)
    if foreign then return .foreign value
    else return .named name value (← spanFrom start)

/-- Attributes up to the end of a tag, in front of which the state is left. -/
def attributes (parse : Grammar) : Parser (List Attribute) :=
  Parser.loop
    (fun (done : List Attribute) => do
      match (← get).cursor.head? with
      | some '>' => return .inr done.reverse
      | some '/' => return .inr done.reverse
      | _ => do
        let next ← givenAttribute parse
        return .inl (next :: done))
    []

/-- Whether the bare place stands in front of a closing tag. -/
def atClosingTag : Parser Bool := do
  let state ← get
  match state.cursor.rest with
  | '<' :: _ =>
    let inner : Trivia := { newline := false, comments := [], cursor := state.cursor.skip 1 }
    return ((skipTrivia state.budget inner).map fun trivia => trivia.cursor.head?) = some (some '/')
  | _ => return false

/-- A child in braces: an expression, a spread, or nothing at all. -/
def bracedChild (parse : Grammar) (start : Nat) : Parser (Option Child) := do
  takeChar '{'
  settle
  if ← atPunct "\x7d" then
    takeChar '}'
    return none
  else if ← eat "..." then
    let e ← parse (.assignment true)
    takeChar '}'
    return some (.spread e (← spanFrom start))
  else
    let e ← parse (.expression true)
    takeChar '}'
    return some (.value e (← spanFrom start))

/-- Children up to the closing tag, in front of which the state is left. -/
def childList (parse : Grammar) : Parser (List Child) :=
  Parser.loop
    (fun (done : List Child) => do
      let cursor := (← get).cursor
      match cursor.head? with
      | none => failure
      | some '<' =>
        if ← atClosingTag then return .inr done.reverse
        else
          let e ← parse (.element true)
          return .inl (.value e e.span :: done)
      | some '{' =>
        match ← bracedChild parse cursor.offset with
        | some child => return .inl (child :: done)
        | none => return .inl done
      | some _ =>
        let (text, after) := cursor.takeWhile fun c => c ≠ '{' && c ≠ '<'
        moveTo after
        return .inl (.text (String.ofList text) (← spanFrom cursor.offset) :: done))
    []

/-- Takes the opening of a closing tag and looks for its name. -/
def closingTagStart : Parser Unit := do
  takeChar '<'
  settle
  takeChar '/'
  settle

/-- The last character of an element. Outside other elements, tokens follow it. -/
def elementEnd (nested : Bool) : Parser Unit := do
  takeChar '>'
  if nested then pure () else settle

/-- A fragment after its opening angle bracket, which stands at `start`. -/
def fragmentRest (parse : Grammar) (nested : Bool) (start : Nat) : Parser Expr := do
  takeChar '>'
  let children ← childList parse
  closingTagStart
  elementEnd nested
  return .fragment children (← spanFrom start)

/-- An element or a fragment at its opening angle bracket. -/
def elementExpression (parse : Grammar) (nested : Bool) : Parser Expr := do
  let start ← startOffset
  takeChar '<'
  settle
  if ← atChar '>' then fragmentRest parse nested start
  else
    let (tag, name) ← tagName
    let given ← attributes parse
    if ← atChar '/' then
      takeChar '/'
      settle
      elementEnd nested
      return .element tag given [] none (← spanFrom start)
    else
      takeChar '>'
      let children ← childList parse
      closingTagStart
      let (closing, closingName) ← tagName
      if closingName = name then
        elementEnd nested
        return .element tag given children (some closing) (← spanFrom start)
      else failure

end ClassFactory.Script
