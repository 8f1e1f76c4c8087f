/-
Module: ClassFactory.Decimal.Text
Purpose: How numbers are written, and how decimal numerals are read. Numbers are written
  positionally at every size, with the fewest digits that identify them.
Main exports: positional, plainNumber, ofDigits, Numeral, readNumber?
-/
import ClassFactory.Decimal.Shortest

namespace ClassFactory.Decimal

/-- As many zeros as asked for. -/
def zeros (count : Nat) : String :=
  String.ofList (List.replicate count '0')

/-- The digits with the decimal point put in; no exponent is ever written. -/
def Digits.positional (decimal : Digits) : String :=
  let text := toString decimal.digits
  if 0 ≤ decimal.scale then text ++ zeros decimal.scale.toNat
  else
    let places := (-decimal.scale).toNat
    if text.length ≤ places then "0." ++ zeros (places - text.length) ++ text
    else
      String.ofList (text.toList.take (text.length - places)) ++ "." ++
        String.ofList (text.toList.drop (text.length - places))

/-- Whether the sign bit of a float is set. -/
def isNegative (value : Float) : Bool :=
  Nat.pow 2 63 ≤ value.toBits.toNat

/-- A number in positional notation: `0.1`, `1000000000000000000000`, `-0`, `inf`, `NaN`. -/
def positional (value : Float) : String :=
  if value.isNaN then "NaN"
  else
    let sign := if isNegative value then "-" else ""
    if value.isInf then sign ++ "inf"
    else
      match Binary.ofFloat? value with
      | some binary => sign ++ binary.shortest.positional
      | none => sign ++ "0"

/-- A number as a literal type shows it: like `positional`, but zero has no sign. -/
def plainNumber (value : Float) : String :=
  if value == 0 then "0" else positional value

/-- The number of decimal digits of a natural number. -/
def digitCount (n : Nat) : Nat :=
  (toString n).length

/-- The float closest to `digits * 10 ^ exponent`. Exponents far outside the range of floats are
answered without forming the power. -/
def ofDigits (digits : Nat) (exponent : Int) : Float :=
  if digits = 0 then 0
  else
    let magnitude := (digitCount digits : Int) + exponent
    if 400 < magnitude then Float.ofScientific 1 false 400
    else if magnitude < -400 then 0
    else if 0 ≤ exponent then Float.ofScientific digits false exponent.toNat
    else Float.ofScientific digits true (-exponent).toNat

/-- The value of a digit in bases up to sixteen. -/
def digitValue? (c : Char) : Option Nat :=
  if '0' ≤ c && c ≤ '9' then some (c.toNat - '0'.toNat)
  else if 'a' ≤ c && c ≤ 'f' then some (c.toNat - 'a'.toNat + 10)
  else if 'A' ≤ c && c ≤ 'F' then some (c.toNat - 'A'.toNat + 10)
  else none

/-- The value of a text of decimal digits; other characters are passed over. -/
def naturalOf (cs : List Char) : Nat :=
  cs.foldl (fun n c => if '0' ≤ c && c ≤ '9' then n * 10 + (c.toNat - '0'.toNat) else n) 0

/-- A decimal numeral taken apart: the digits before the point, those after it, and the exponent. -/
structure Numeral where
  whole : List Char
  fraction : List Char
  exponent : Int
deriving Repr, Inhabited, DecidableEq

/-- The float closest to a numeral. -/
def Numeral.toFloat (numeral : Numeral) : Float :=
  ofDigits (naturalOf (numeral.whole ++ numeral.fraction))
    (numeral.exponent - (numeral.fraction.length : Int))

/-- The exponent at the end of a numeral, and whether it is well formed; no text is exponent zero. -/
def readExponent? : List Char → Option Int
  | [] => some 0
  | mark :: rest =>
    if mark ≠ 'e' && mark ≠ 'E' then none
    else
      let (negative, digits) := match rest with
        | '-' :: digits => (true, digits)
        | '+' :: digits => (false, digits)
        | digits => (false, digits)
      if digits.isEmpty || !digits.all Char.isDigit then none
      else if negative then some (-(naturalOf digits : Int)) else some (naturalOf digits : Int)

/-- Reads digits, an optional point with digits, and an optional exponent. -/
def readNumeral? (cs : List Char) : Option Numeral :=
  let whole := cs.takeWhile Char.isDigit
  let rest := cs.dropWhile Char.isDigit
  let (fraction, rest) := match rest with
    | '.' :: after => (after.takeWhile Char.isDigit, after.dropWhile Char.isDigit)
    | _ => ([], rest)
  if whole.isEmpty && fraction.isEmpty then none
  else (readExponent? rest).map fun exponent =>
    { whole := whole, fraction := fraction, exponent := exponent }

/-- Reads a number with an optional sign, or one of the words for infinity and for no number, in
any mixture of capitals. -/
def readNumber? (text : String) : Option Float :=
  let (negative, cs) := match text.toList with
    | '-' :: rest => (true, rest)
    | '+' :: rest => (false, rest)
    | cs => (false, cs)
  let magnitude := match String.ofList (cs.map Char.toLower) with
    | "inf" | "infinity" => some (Float.ofScientific 1 false 400)
    | "nan" => some (0.0 / 0.0)
    | _ => (readNumeral? cs).map Numeral.toFloat
  magnitude.map fun value => if negative then -value else value

end ClassFactory.Decimal
