/-
Module: ClassFactory.Script.Parse
Purpose: Reading programs: modules with elements, in the language of 2022 and later. The parts of the
  grammar are tied together by a budget for their nesting, which no program exhausts.
Main exports: parseProgram?, parseExpression?
-/
import ClassFactory.Script.Statements

namespace ClassFactory.Script

/-- One part of the grammar, given parsers for all the parts it calls. -/
def grammarStep (parse : Grammar) : Grammar
  | .expression allowIn => commaExpression parse allowIn
  | .assignment allowIn => assignmentExpression parse allowIn
  | .binary allowIn precedence => binaryExpression parse allowIn precedence
  | .unary => unaryExpression parse
  | .constructee => constructeeExpression parse
  | .binding => parseBinding parse
  | .statement => statement parse
  | .element nested => elementExpression parse nested

/-- The grammar with its parts nested at most that deep. -/
def grammar : Nat → Grammar
  | 0 => fun _ => failure
  | depth + 1 => fun goal => grammarStep (grammar depth) goal

/-- The state in front of the first token of a source. A first line that names an interpreter is
passed over. -/
def startState (source : String) : ParseState :=
  let text := source.toList
  let cursor : Cursor := { offset := 0, rest := text }
  let cursor := match text with
    | '#' :: '!' :: _ => (cursor.takeWhile fun c => !isLineEnd c).2
    | _ => cursor
  { cursor := cursor, token := .invalid, after := cursor, newline := false, lastEnd := 0,
    comments := [], unclaimedDefault := false, inFunction := false, awaits := true, yields := false,
    budget := text.length + 2 }

/-- The program a source text holds; `none` if the text is no program. Between a character taken and
the next at most four parts of the grammar nest. -/
def parseProgram? (source : String) : Option Program :=
  let start := startState source
  let parser : Parser Program := do
    settle
    let body ← programBody (grammar (4 * start.budget + 16))
    let state ← get
    if state.unclaimedDefault then failure
    else return { body := body.dropWhile isDirective, comments := state.comments.reverse }
  (parser.run start).map Prod.fst

/-- The expression a text holds, in parentheses of its own. -/
def parseExpression? (text : String) : Option Expr :=
  match parseProgram? ("(" ++ text ++ ");") with
  | some program =>
    match program.body with
    | .expression e _ :: _ => some e
    | _ => none
  | none => none

end ClassFactory.Script
