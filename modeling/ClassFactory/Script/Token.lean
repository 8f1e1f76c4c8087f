/-
Module: ClassFactory.Script.Token
Purpose: The lexical grammar of JavaScript: white space and comments, names with their escapes,
  numbers, strings, regular expressions, template chunks and punctuation. A `Cursor` is a place in
  the source with the text from there on.
Main exports: Cursor, Token, skipTrivia, scanToken, scanRegex, scanTemplateChunk
-/
import ClassFactory.Decimal.Text
import ClassFactory.Source.Site
import ClassFactory.Text.Bytes
import ClassFactory.Text.Letters
import ClassFactory.Text.Search

namespace ClassFactory.Script

/-- A place in a source: its byte offset and the text that follows. -/
structure Cursor where
  offset : Nat
  rest : List Char
deriving Repr, Inhabited

namespace Cursor

/-- The place after the next `count` characters. -/
def skip (cursor : Cursor) (count : Nat) : Cursor :=
  { offset := cursor.offset + Text.byteLength (cursor.rest.take count),
    rest := cursor.rest.drop count }

/-- The longest run of characters that satisfy `p`, and the place after it. -/
def takeWhile (cursor : Cursor) (p : Char → Bool) : List Char × Cursor :=
  let taken := cursor.rest.takeWhile p
  (taken, { offset := cursor.offset + Text.byteLength taken, rest := cursor.rest.dropWhile p })

/-- The next character. -/
def head? (cursor : Cursor) : Option Char := cursor.rest.head?

end Cursor

/-- A unit of the source. Regular expressions and templates are known by how they begin; the
parser, which knows where they may stand, reads on. -/
inductive Token where
  /-- A name or a word of the language; `escaped` names are never words of the language. -/
  | name (text : String) (escaped : Bool)
  | hidden (text : String)
  | punct (text : String)
  | string (value : String)
  | number (value : Float)
  | bigint
  | template
  | eof
  | invalid
deriving Inhabited

/-- Whether a character ends a line. -/
def isLineEnd (c : Char) : Bool :=
  c = '\n' || c = '\r' || c = '\u2028' || c = '\u2029'

/-- Whether a character separates tokens without ending a line. Besides the white space of the
language these are the next-line control, the Mongolian vowel separator and the zero-width space. -/
def isSpace (c : Char) : Bool :=
  c = ' ' || c = '\t' || c = '\x0b' || c = '\x0c' || c = '\u0085' || c = '\u00a0' ||
    c = '\u1680' || c = '\u180e' || (0x2000 ≤ c.toNat && c.toNat ≤ 0x200B) || c = '\u202f' ||
    c = '\u205f' || c = '\u3000' || c = '\ufeff'

/-- Whether a character may begin a name. -/
def startsName (c : Char) : Bool :=
  c.isAlpha || c = '$' || c = '_' || (0x80 ≤ c.toNat && Text.isAlphabetic c)

/-- Whether a character may continue a name. -/
def continuesName (c : Char) : Bool :=
  c.isAlphanum || c = '$' || c = '_' || (0x80 ≤ c.toNat && Text.isWordCharacter c)

/-- The text of a block comment after its opening, up to and including its end, in reverse. -/
def blockComment? : List Char → List Char → Option (List Char)
  | _, [] => none
  | done, '*' :: '/' :: _ => some ('/' :: '*' :: done)
  | done, c :: cs => blockComment? (c :: done) cs

/-- What lies in front of a token. -/
structure Trivia where
  /-- Whether a line ends there. -/
  newline : Bool
  /-- The comments there, the latest first. -/
  comments : List Span
  /-- Where the token begins. -/
  cursor : Cursor

/-- Skips white space and comments; `none` if a comment does not end. The budget bounds the number
of runs. -/
def skipTrivia : Nat → Trivia → Option Trivia
  | 0, trivia => some trivia
  | budget + 1, trivia =>
    match trivia.cursor.rest with
    | '/' :: '/' :: _ =>
      let (_, cursor) := trivia.cursor.takeWhile fun c => !isLineEnd c
      let comment : Span := { start := trivia.cursor.offset, stop := cursor.offset }
      skipTrivia budget { trivia with comments := comment :: trivia.comments, cursor := cursor }
    | '/' :: '*' :: inner =>
      match blockComment? [] inner with
      | some text =>
        let cursor := trivia.cursor.skip (text.length + 2)
        let comment : Span := { start := trivia.cursor.offset, stop := cursor.offset }
        skipTrivia budget
          { newline := trivia.newline || text.any isLineEnd,
            comments := comment :: trivia.comments, cursor := cursor }
      | none => none
    | c :: _ =>
      if isLineEnd c then
        skipTrivia budget { trivia with newline := true, cursor := trivia.cursor.skip 1 }
      else if isSpace c then
        let (_, cursor) := trivia.cursor.takeWhile isSpace
        skipTrivia budget { trivia with cursor := cursor }
      else some trivia
    | [] => some trivia

/-- The value of hexadecimal digits, if there are any and nothing else. -/
def hexValue? (digits : List Char) : Option Nat :=
  if digits.isEmpty then none
  else
    digits.foldl
      (fun value d => value.bind fun n => (Decimal.digitValue? d).map fun v => n * 16 + v) (some 0)

/-- The code point of a Unicode escape after `\u`, and how many characters it takes. -/
def codePoint? : List Char → Option (Nat × Nat)
  | '{' :: cs =>
    let digits := cs.takeWhile (· ≠ '}')
    match cs.drop digits.length, hexValue? digits with
    | '}' :: _, some n => if n < 0x110000 then some (n, digits.length + 2) else none
    | _, _ => none
  | cs =>
    let digits := cs.take 4
    if digits.length = 4 then (hexValue? digits).map fun n => (n, 4) else none

/-- Reads a name; `done` holds its characters in reverse. -/
def scanName : Nat → List Char → Bool → Cursor → Option (List Char × Bool × Cursor)
  | 0, _, _, _ => none
  | budget + 1, done, escaped, cursor =>
    match cursor.rest with
    | '\\' :: 'u' :: cs =>
      match codePoint? cs with
      | some (n, width) =>
        let c := Char.ofNat n
        if if done.isEmpty then startsName c else continuesName c then
          scanName budget (c :: done) true (cursor.skip (width + 2))
        else none
      | none => none
    | '\\' :: _ => none
    | c :: _ =>
      if if done.isEmpty then startsName c else continuesName c then
        scanName budget (c :: done) escaped (cursor.skip 1)
      else some (done.reverse, escaped, cursor)
    | [] => some (done.reverse, escaped, cursor)

/-- The digits of a base among the next characters, separators dropped, and the place after. -/
def digitsOf (base : Nat) (cursor : Cursor) : List Nat × Cursor :=
  let (text, after) := cursor.takeWhile fun c =>
    c = '_' || (Decimal.digitValue? c).any (· < base)
  (text.filterMap Decimal.digitValue?, after)

/-- The value of digits in a base. Up to 64 bits it is rounded once; beyond that the digits are
added one after another, each sum rounded. -/
def radixValue (base : Nat) (digits : List Nat) : Float :=
  let exact := digits.foldl (fun n d => n * base + d) 0
  if exact < Nat.pow 2 64 then Float.ofNat exact
  else digits.foldl (fun v d => v * Float.ofNat base + Float.ofNat d) 0

/-- The exponent of a decimal literal. -/
def scanExponent? (cursor : Cursor) : Option (Int × Cursor) :=
  match cursor.rest with
  | mark :: cs =>
    if mark = 'e' || mark = 'E' then
      let (negative, cursor) := match cs with
        | '-' :: _ => (true, cursor.skip 2)
        | '+' :: _ => (false, cursor.skip 2)
        | _ => (false, cursor.skip 1)
      let (digits, cursor) := digitsOf 10 cursor
      if digits.isEmpty then none
      else
        let n : Nat := digits.foldl (fun n d => n * 10 + d) 0
        some (if negative then -(n : Int) else (n : Int), cursor)
    else some (0, cursor)
  | [] => some (0, cursor)

/-- A decimal literal with a fraction and an exponent, or a big integer. -/
def scanDecimal (cursor : Cursor) : Option (Token × Cursor) :=
  let (whole, cursor) := digitsOf 10 cursor
  match cursor.rest with
  | 'n' :: _ => some (.bigint, cursor.skip 1)
  | _ =>
    let (fraction, cursor) := match cursor.rest with
      | '.' :: _ => digitsOf 10 (cursor.skip 1)
      | _ => ([], cursor)
    match scanExponent? cursor with
    | some (exponent, cursor) =>
      let digits := (whole ++ fraction).foldl (fun n d => n * 10 + d) 0
      some (.number (Decimal.ofDigits digits (exponent - (fraction.length : Int))), cursor)
    | none => none

/-- A literal in base sixteen, eight or two, after its mark. -/
def scanRadix (base : Nat) (cursor : Cursor) : Option (Token × Cursor) :=
  let (digits, cursor) := digitsOf base cursor
  if digits.isEmpty then none
  else
    match cursor.rest with
    | 'n' :: _ => some (.bigint, cursor.skip 1)
    | _ => some (.number (radixValue base digits), cursor)

/-- A number, which no name may follow directly. Digits after a leading zero are octal unless one
of them is eight or nine. -/
def scanNumber (cursor : Cursor) : Option (Token × Cursor) :=
  let scanned := match cursor.rest with
    | '0' :: 'x' :: _ => scanRadix 16 (cursor.skip 2)
    | '0' :: 'X' :: _ => scanRadix 16 (cursor.skip 2)
    | '0' :: 'o' :: _ => scanRadix 8 (cursor.skip 2)
    | '0' :: 'O' :: _ => scanRadix 8 (cursor.skip 2)
    | '0' :: 'b' :: _ => scanRadix 2 (cursor.skip 2)
    | '0' :: 'B' :: _ => scanRadix 2 (cursor.skip 2)
    | '0' :: d :: _ =>
      if d.isDigit then
        let (text, after) := cursor.takeWhile Char.isDigit
        if text.all fun c => c < '8' then
          some (.number (radixValue 8 (text.filterMap Decimal.digitValue?)), after)
        else scanDecimal cursor
      else scanDecimal cursor
    | _ => scanDecimal cursor
  match scanned with
  | some (token, after) =>
    if after.head?.any fun c => continuesName c || c = '\\' then none else some (token, after)
  | none => none

/-- Four lower-case hexadecimal digits. -/
def hexDigits (n : Nat) : List Char :=
  let digit (d : Nat) : Char :=
    if d < 10 then Char.ofNat ('0'.toNat + d) else Char.ofNat ('a'.toNat + (d - 10))
  [digit (n / 4096 % 16), digit (n / 256 % 16), digit (n / 16 % 16), digit (n % 16)]

/-- Whether a code point is one half of a pair. -/
def isSurrogate (n : Nat) : Bool := 0xD800 ≤ n && n < 0xE000

/-- The text of a string literal from its code points. If it holds a half of a pair, which no text
can, the replacement character is used as a mark: it is followed by the four digits of what it
stands for, itself included. -/
def stringValue (points : List Nat) : String :=
  if points.any isSurrogate then
    String.ofList <| points.flatMap fun n =>
      if isSurrogate n || n = 0xFFFD then '\ufffd' :: hexDigits n else [Char.ofNat n]
  else String.ofList (points.map Char.ofNat)

/-- The code point of an escape after `\u` and the characters it takes; two halves written one
after the other form one. -/
def unicodeEscape? (cs : List Char) : Option (Nat × Nat) :=
  match codePoint? cs with
  | some (high, 4) =>
    if 0xD800 ≤ high && high < 0xDC00 then
      match cs.drop 4 with
      | '\\' :: 'u' :: more =>
        match codePoint? more with
        | some (low, 4) =>
          if 0xDC00 ≤ low && low < 0xE000 then
            some (0x10000 + (high - 0xD800) * 0x400 + (low - 0xDC00), 10)
          else some (high, 4)
        | _ => some (high, 4)
      | _ => some (high, 4)
    else some (high, 4)
  | other => other

/-- The code point of a one-letter escape. -/
def simpleEscape (c : Char) : Nat :=
  match c with
  | 'n' => 10
  | 't' => 9
  | 'r' => 13
  | 'b' => 8
  | 'f' => 12
  | 'v' => 11
  | _ => c.toNat

/-- The value of an octal escape of at most three digits below 256, and how many it takes. -/
def octalEscape (cs : List Char) : Nat × Nat :=
  let isOctal (c : Char) : Bool := '0' ≤ c && c ≤ '7'
  let limit := if cs.head?.any (· ≤ '3') then 3 else 2
  let digits := (cs.take limit).takeWhile isOctal
  (digits.foldl (fun n c => n * 8 + (c.toNat - '0'.toNat)) 0, digits.length)

/-- What an escape after its backslash stands for, and how many characters it takes. A line that
ends there goes on. -/
def escape? : List Char → Option (List Nat × Nat)
  | 'u' :: cs => (unicodeEscape? cs).map fun (n, width) => ([n], width + 1)
  | 'x' :: cs =>
    let digits := cs.take 2
    if digits.length = 2 then (hexValue? digits).map fun n => ([n], 3) else none
  | '\r' :: '\n' :: _ => some ([], 2)
  | c :: cs =>
    if isLineEnd c then some ([], 1)
    else if '0' ≤ c && c ≤ '7' then
      let (n, width) := octalEscape (c :: cs)
      some ([n], width)
    else some ([simpleEscape c], 1)
  | [] => none

/-- Reads a string up to its closing quote; `done` holds its code points in reverse. -/
def scanString (quote : Char) : Nat → List Nat → Cursor → Option (Token × Cursor)
  | 0, _, _ => none
  | budget + 1, done, cursor =>
    match cursor.rest with
    | [] => none
    | '\\' :: cs =>
      match escape? cs with
      | some (points, width) =>
        scanString quote budget (points.reverse ++ done) (cursor.skip (width + 1))
      | none => none
    | c :: _ =>
      if c = quote then some (.string (stringValue done.reverse), cursor.skip 1)
      else if c = '\n' || c = '\r' then none
      else scanString quote budget (c.toNat :: done) (cursor.skip 1)

/-- Reads a template from inside it up to the next embedded expression or to its end; tells whether
it ended. -/
def scanTemplateChunk : Nat → Cursor → Option (Bool × Cursor)
  | 0, _ => none
  | budget + 1, cursor =>
    match cursor.rest with
    | [] => none
    | '\\' :: _ => scanTemplateChunk budget (cursor.skip 2)
    | '$' :: '{' :: _ => some (false, cursor.skip 2)
    | '\x60' :: _ => some (true, cursor.skip 1)
    | _ => scanTemplateChunk budget (cursor.skip 1)

/-- Reads the body of a regular expression up to and including its closing slash. A slash inside
brackets does not close it. -/
def scanRegexBody : Nat → Bool → Cursor → Option Cursor
  | 0, _, _ => none
  | budget + 1, inClass, cursor =>
    match cursor.rest with
    | [] => none
    | '\\' :: c :: _ => if isLineEnd c then none else scanRegexBody budget inClass (cursor.skip 2)
    | c :: _ =>
      if isLineEnd c then none
      else if c = '[' then scanRegexBody budget true (cursor.skip 1)
      else if c = ']' then scanRegexBody budget false (cursor.skip 1)
      else if c = '/' && !inClass then some (cursor.skip 1)
      else scanRegexBody budget inClass (cursor.skip 1)

/-- Reads a regular expression after its opening slash, with its flags, each of which may occur
once. -/
def scanRegex (cursor : Cursor) : Option Cursor :=
  match scanRegexBody (cursor.rest.length + 1) false cursor with
  | some cursor =>
    let (flags, after) := cursor.takeWhile continuesName
    if flags.all ("dgimsuvy".toList.contains ·) && flags.eraseDups.length = flags.length then
      some after
    else none
  | none => none

/-- The punctuation of the language, longer marks before their beginnings. -/
def punctuation : List String :=
  [">>>=", "...", "===", "!==", "**=", "<<=", ">>=", ">>>", "&&=", "||=", "??=", "=>", "==", "!=",
   "<=", ">=", "&&", "||", "??", "?.", "++", "--", "+=", "-=", "*=", "/=", "%=", "&=", "|=", "^=",
   "<<", ">>", "**", "\x7b", "\x7d", "(", ")", "[", "]", ";", ",", "<", ">", "+", "-", "*", "/",
   "%", "&", "|", "^", "!", "~", "?", ":", "=", "."]

/-- The longest punctuation mark at a place. A question mark and a period in front of a digit are
two marks. -/
def scanPunctuation (cursor : Cursor) : Option (Token × Cursor) :=
  let fits (mark : String) : Bool :=
    match Text.dropStart? mark.toList cursor.rest with
    | some rest => !(mark = "?." && rest.head?.any Char.isDigit)
    | none => false
  (punctuation.find? fits).map fun mark => (.punct mark, cursor.skip mark.length)

/-- The token that begins at a place, and the place after it. -/
def scanToken (cursor : Cursor) : Token × Cursor :=
  let budget := cursor.rest.length + 1
  let scanned : Option (Token × Cursor) := match cursor.rest with
    | [] => some (.eof, cursor)
    | '"' :: _ => scanString '"' budget [] (cursor.skip 1)
    | '\x27' :: _ => scanString '\x27' budget [] (cursor.skip 1)
    | '\x60' :: _ => some (.template, cursor.skip 1)
    | '#' :: _ =>
      match scanName budget [] false (cursor.skip 1) with
      | some ([], _, _) => none
      | some (text, _, after) => some (.hidden (String.ofList text), after)
      | none => none
    | '.' :: d :: _ => if d.isDigit then scanNumber cursor else scanPunctuation cursor
    | c :: _ =>
      if c.isDigit then scanNumber cursor
      else if startsName c || c = '\\' then
        match scanName budget [] false cursor with
        | some ([], _, _) => none
        | some (text, escaped, after) => some (.name (String.ofList text) escaped, after)
        | none => none
      else scanPunctuation cursor
  scanned.getD (.invalid, cursor)

end ClassFactory.Script
