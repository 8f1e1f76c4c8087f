/-
Module: ClassFactory.Json.Reader
Purpose: Reading JSON text. The grammar is the standard one: no comments, no trailing commas, no
  unescaped control characters, no lone surrogate escapes. Containers nest at most 127 deep; numbers
  may be of any size.
Main exports: Json.read?
-/
import ClassFactory.Json.Value

namespace ClassFactory.Json

/-- The rest of a text after JSON white space. -/
def skipBlanks (cs : List Char) : List Char :=
  cs.dropWhile fun c => c = ' ' || c = '\t' || c = '\n' || c = '\r'

/-- Four hexadecimal digits and what follows them. -/
def hexUnit? : List Char → Option (Nat × List Char)
  | a :: b :: c :: d :: rest =>
    match Decimal.digitValue? a, Decimal.digitValue? b, Decimal.digitValue? c,
      Decimal.digitValue? d with
    | some a, some b, some c, some d => some (((a * 16 + b) * 16 + c) * 16 + d, rest)
    | _, _, _, _ => none
  | _ => none

/-- The character of a `\u` escape, two of which form one beyond the first plane. -/
def unicodeEscape? (cs : List Char) : Option (Char × List Char) :=
  match hexUnit? cs with
  | some (unit, rest) =>
    if 0xD800 ≤ unit && unit < 0xDC00 then
      match rest with
      | '\\' :: 'u' :: after =>
        match hexUnit? after with
        | some (low, rest) =>
          if 0xDC00 ≤ low && low < 0xE000 then
            some (Char.ofNat (0x10000 + (unit - 0xD800) * 0x400 + (low - 0xDC00)), rest)
          else none
        | none => none
      | _ => none
    else if 0xDC00 ≤ unit && unit < 0xE000 then none
    else some (Char.ofNat unit, rest)
  | none => none

/-- The character a one-letter escape stands for. -/
def shortEscape? : Char → Option Char
  | '"' => some '"'
  | '\\' => some '\\'
  | '/' => some '/'
  | 'b' => some '\x08'
  | 'f' => some '\x0c'
  | 'n' => some '\n'
  | 'r' => some '\r'
  | 't' => some '\t'
  | _ => none

/-- The contents of a string after its opening quote. The budget bounds the number of characters. -/
def readString? : Nat → List Char → List Char → Option (String × List Char)
  | 0, _, _ => none
  | _ + 1, _, [] => none
  | budget + 1, done, c :: cs =>
    if c = '"' then some (String.ofList done.reverse, cs)
    else if c = '\\' then
      match cs with
      | 'u' :: rest =>
        match unicodeEscape? rest with
        | some (e, rest) => readString? budget (e :: done) rest
        | none => none
      | mark :: rest =>
        match shortEscape? mark with
        | some e => readString? budget (e :: done) rest
        | none => none
      | [] => none
    else if c.toNat < 0x20 then none
    else readString? budget (c :: done) cs

/-- One or more digits. -/
def readDigits? (cs : List Char) : Option (List Char × List Char) :=
  let digits := cs.takeWhile Char.isDigit
  if digits.isEmpty then none else some (digits, cs.dropWhile Char.isDigit)

/-- The fraction of a number, empty if there is none. -/
def readFraction? : List Char → Option (List Char × List Char)
  | '.' :: cs => (readDigits? cs).map fun (digits, rest) => ('.' :: digits, rest)
  | cs => some ([], cs)

/-- The exponent of a number, empty if there is none. -/
def readExponent? : List Char → Option (List Char × List Char)
  | mark :: cs =>
    if mark = 'e' || mark = 'E' then
      let (sign, cs) := match cs with
        | '-' :: rest => (['-'], rest)
        | '+' :: rest => (['+'], rest)
        | _ => ([], cs)
      (readDigits? cs).map fun (digits, rest) => ('e' :: sign ++ digits, rest)
    else some ([], mark :: cs)
  | [] => some ([], [])

/-- A number, as its literal. -/
def readNumber? (cs : List Char) : Option (Json × List Char) := do
  let (sign, cs) := match cs with
    | '-' :: rest => (['-'], rest)
    | _ => ([], cs)
  let (whole, cs) ← readDigits? cs
  if whole.head? = some '0' && 1 < whole.length then none
  else
    let (fraction, cs) ← readFraction? cs
    let (exponent, cs) ← readExponent? cs
    some (.number (String.ofList (sign ++ whole ++ fraction ++ exponent)), cs)

/-- Items up to the closing bracket; `more` tells that an item must follow. -/
def readItems? (value : List Char → Option (Json × List Char)) :
    Nat → Bool → List Json → List Char → Option (Json × List Char)
  | 0, _, _, _ => none
  | budget + 1, more, done, cs =>
    match skipBlanks cs with
    | ']' :: rest => if more then none else some (.array done.reverse, rest)
    | cs =>
      match value cs with
      | some (item, rest) =>
        match skipBlanks rest with
        | ',' :: rest => readItems? value budget true (item :: done) rest
        | ']' :: rest => some (.array (item :: done).reverse, rest)
        | _ => none
      | none => none

/-- Entries up to the closing brace; `more` tells that an entry must follow. -/
def readEntries? (value : List Char → Option (Json × List Char)) :
    Nat → Bool → List (String × Json) → List Char → Option (Json × List Char)
  | 0, _, _, _ => none
  | budget + 1, more, done, cs =>
    match skipBlanks cs with
    | '}' :: rest => if more then none else some (.object done.reverse, rest)
    | '"' :: cs =>
      match readString? (cs.length + 1) [] cs with
      | some (key, rest) =>
        match skipBlanks rest with
        | ':' :: rest =>
          match value (skipBlanks rest) with
          | some (item, rest) =>
            match skipBlanks rest with
            | ',' :: rest => readEntries? value budget true ((key, item) :: done) rest
            | '}' :: rest => some (.object ((key, item) :: done).reverse, rest)
            | _ => none
          | none => none
        | _ => none
      | none => none
    | _ => none

/-- A word, a string or a number. -/
def readScalar? : List Char → Option (Json × List Char)
  | 'n' :: 'u' :: 'l' :: 'l' :: rest => some (.null, rest)
  | 't' :: 'r' :: 'u' :: 'e' :: rest => some (.bool true, rest)
  | 'f' :: 'a' :: 'l' :: 's' :: 'e' :: rest => some (.bool false, rest)
  | '"' :: rest =>
    (readString? (rest.length + 1) [] rest).map fun (text, rest) => (.string text, rest)
  | cs => readNumber? cs

/-- A value that starts with the first character of the text; containers may nest `depth` deep. -/
def readValue? : Nat → List Char → Option (Json × List Char)
  | 0, cs => readScalar? cs
  | depth + 1, cs =>
    match cs with
    | '[' :: rest => readItems? (readValue? depth) (rest.length + 1) false [] rest
    | '{' :: rest => readEntries? (readValue? depth) (rest.length + 1) false [] rest
    | _ => readScalar? cs

/-- The document a text holds; `none` if the text is no document or goes on after it. -/
def read? (text : String) : Option Json :=
  match readValue? 127 (skipBlanks text.toList) with
  | some (document, rest) => if (skipBlanks rest).isEmpty then some document else none
  | none => none

end ClassFactory.Json
