/-
Module: ClassFactory.Json.Value
Purpose: JSON documents and the readings of them that configuration and diagnostics need.
  Numbers keep their literal, so that `1` and `1.0` stay apart; objects keep repeated keys, so
  that a reader can decide what a repetition means.
Main exports: Json, Json.settled, Json.isFinite, Json.get?, Json.natural32?, Json.fields?
-/
import ClassFactory.Decimal.Text

namespace ClassFactory

/-- A JSON document. -/
inductive Json where
  | null
  | bool (value : Bool)
  | number (literal : String)
  | string (value : String)
  | array (items : List Json)
  | object (entries : List (String × Json))
deriving Repr, Inhabited

namespace Json

/-- A natural number as a document. -/
def nat (n : Nat) : Json := .number (toString n)

/-- `null` for nothing. -/
def ofOption {α : Type} (encode : α → Json) : Option α → Json
  | some a => encode a
  | none => .null

/-- An array of encoded items. -/
def ofList {α : Type} (encode : α → Json) (items : List α) : Json :=
  .array (items.map encode)

/-- The value of the last entry with the given key. -/
def lastEntry (key : String) : List (String × Json) → Option Json
  | [] => none
  | (name, value) :: rest =>
    match lastEntry key rest with
    | some later => some later
    | none => if name = key then some value else none

/-- Drops every entry whose key occurs again later. -/
def dropRepeated : List (String × Json) → List (String × Json)
  | [] => []
  | entry :: rest =>
    if rest.any (fun later => later.1 = entry.1) then dropRepeated rest
    else entry :: dropRepeated rest

mutual
/-- The document in which the last value of a repeated key stands for all of them. -/
def settled : Json → Json
  | .array items => .array (settledItems items)
  | .object entries => .object (dropRepeated (settledEntries entries))
  | other => other

/-- `settled` on each item. -/
def settledItems : List Json → List Json
  | [] => []
  | item :: rest => item.settled :: settledItems rest

/-- `settled` on each value. -/
def settledEntries : List (String × Json) → List (String × Json)
  | [] => []
  | (key, value) :: rest => (key, value.settled) :: settledEntries rest
end

mutual
/-- Whether no number of the document is too large for a float. -/
def isFinite : Json → Bool
  | .number literal => (Decimal.readNumber? literal).all Float.isFinite
  | .array items => areFinite items
  | .object entries => valuesAreFinite entries
  | _ => true

/-- `isFinite` of each item. -/
def areFinite : List Json → Bool
  | [] => true
  | item :: rest => item.isFinite && areFinite rest

/-- `isFinite` of each value. -/
def valuesAreFinite : List (String × Json) → Bool
  | [] => true
  | (_, value) :: rest => value.isFinite && valuesAreFinite rest
end

/-- The value of a key of an object. -/
def get? (document : Json) (key : String) : Option Json :=
  match document with
  | .object entries => lastEntry key entries
  | _ => none

/-- The text of a string. -/
def string? : Json → Option String
  | .string value => some value
  | _ => none

/-- The truth value. -/
def bool? : Json → Option Bool
  | .bool value => some value
  | _ => none

/-- The items of an array. -/
def items? : Json → Option (List Json)
  | .array items => some items
  | _ => none

/-- A number written with digits only. -/
def natural? : Json → Option Nat
  | .number literal =>
    if literal.toList.all Char.isDigit then some (Decimal.naturalOf literal.toList) else none
  | _ => none

/-- A number written with digits only that fits 32 bits. -/
def natural32? (document : Json) : Option Nat :=
  document.natural?.filter (· < Nat.pow 2 32)

/-- An array of strings. -/
def strings? (document : Json) : Option (List String) :=
  document.items?.bind fun items => items.mapM string?

/-- The values of a record, given by the names of its fields in order. A record is written as an
object, whose other keys are passed over and which must not repeat a field, or as an array of the
values, which may stop early but must not go on after the last field. -/
def fields? (names : List String) : Json → Option (List (Option Json))
  | .object entries =>
    let known := (entries.map Prod.fst).filter fun key => names.contains key
    if known.eraseDups.length = known.length then
      some (names.map fun name => lastEntry name entries)
    else none
  | .array items =>
    if items.length ≤ names.length then
      some ((items.map some) ++ List.replicate (names.length - items.length) none)
    else none
  | _ => none

end Json

end ClassFactory
