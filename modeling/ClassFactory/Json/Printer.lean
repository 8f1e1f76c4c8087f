/-
Module: ClassFactory.Json.Printer
Purpose: Writing JSON, on one line or indented by two spaces. Only quotes, backslashes and control
  characters are escaped.
Main exports: Json.quote, Json.compact, Json.pretty
-/
import ClassFactory.Json.Value
import ClassFactory.Text.Search

namespace ClassFactory.Json

/-- The lower-case hexadecimal digit of a value below sixteen. -/
def hexDigit (n : Nat) : Char :=
  if n < 10 then Char.ofNat ('0'.toNat + n) else Char.ofNat ('a'.toNat + (n - 10))

/-- How one character is written inside a string. -/
def escape (c : Char) : List Char :=
  if c = '"' then ['\\', '"']
  else if c = '\\' then ['\\', '\\']
  else if c = '\n' then ['\\', 'n']
  else if c = '\r' then ['\\', 'r']
  else if c = '\t' then ['\\', 't']
  else if c = '\x08' then ['\\', 'b']
  else if c = '\x0c' then ['\\', 'f']
  else if c.toNat < 0x20 then
    ['\\', 'u', '0', '0', hexDigit (c.toNat / 16), hexDigit (c.toNat % 16)]
  else [c]

/-- A string in quotes. -/
def quote (s : String) : String :=
  String.ofList ('"' :: s.toList.flatMap escape ++ ['"'])

mutual
/-- The document on one line without spaces. -/
def compact : Json → String
  | .null => "null"
  | .bool true => "true"
  | .bool false => "false"
  | .number literal => literal
  | .string value => quote value
  | .array items => "[" ++ Text.joinWith "," (compactItems items) ++ "]"
  | .object entries => "\x7b" ++ Text.joinWith "," (compactEntries entries) ++ "\x7d"

/-- Each item on one line. -/
def compactItems : List Json → List String
  | [] => []
  | item :: rest => item.compact :: compactItems rest

/-- Each entry on one line. -/
def compactEntries : List (String × Json) → List String
  | [] => []
  | (key, value) :: rest => (quote key ++ ":" ++ value.compact) :: compactEntries rest
end

/-- A line break followed by two spaces per level. -/
def lineBreak (level : Nat) : String :=
  String.ofList ('\n' :: List.replicate (2 * level) ' ')

/-- Lines between brackets, or the bare brackets if there are none. -/
def bracketed (opening closing : String) (level : Nat) (lines : List String) : String :=
  if lines.isEmpty then opening ++ closing
  else
    opening ++ lineBreak (level + 1) ++ Text.joinWith ("," ++ lineBreak (level + 1)) lines ++
      lineBreak level ++ closing

mutual
/-- The document with one item or entry per line, inside `level` containers. -/
def prettyAt (level : Nat) : Json → String
  | .array items => bracketed "[" "]" level (prettyItems level items)
  | .object entries => bracketed "\x7b" "\x7d" level (prettyEntries level entries)
  | .null => "null"
  | .bool true => "true"
  | .bool false => "false"
  | .number literal => literal
  | .string value => quote value

/-- Each item, one level deeper. -/
def prettyItems (level : Nat) : List Json → List String
  | [] => []
  | item :: rest => item.prettyAt (level + 1) :: prettyItems level rest

/-- Each entry, one level deeper. -/
def prettyEntries (level : Nat) : List (String × Json) → List String
  | [] => []
  | (key, value) :: rest =>
    (quote key ++ ": " ++ value.prettyAt (level + 1)) :: prettyEntries level rest
end

/-- The document in indented form. -/
def pretty (document : Json) : String := document.prettyAt 0

end ClassFactory.Json
