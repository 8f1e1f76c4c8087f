/-
Module: ClassFactory.Decimal.Shortest
Purpose: The shortest decimal that identifies a binary floating-point value. A finite value is
  `mantissa * 2 ^ exponent`; a decimal identifies it if it lies in the interval of reals that round
  to the value, whose ends count when the mantissa is even.
Main exports: Binary, Binary.ofFloat?, Binary.readsBack, Digits, Binary.shortest
-/

namespace ClassFactory.Decimal

/-- A finite positive value `mantissa * 2 ^ exponent`. -/
structure Binary where
  mantissa : Nat
  exponent : Int
  /-- The value below is half as far away as the value above. -/
  narrowBelow : Bool
deriving Repr, Inhabited, DecidableEq

/-- The magnitude of a finite float other than zero. -/
def Binary.ofFloat? (value : Float) : Option Binary :=
  let bits : Nat := value.toBits.toNat
  let stored : Nat := bits / Nat.pow 2 52 % Nat.pow 2 11
  let fraction : Nat := bits % Nat.pow 2 52
  if stored = 2047 then none
  else if stored = 0 then
    if fraction = 0 then none
    else some { mantissa := fraction, exponent := -1074, narrowBelow := false }
  else
    some { mantissa := fraction + Nat.pow 2 52, exponent := (stored : Int) - 1075,
           narrowBelow := fraction = 0 && stored ≠ 1 }

/-- A decimal `digits * 10 ^ scale`. -/
structure Digits where
  digits : Nat
  scale : Int
deriving Repr, Inhabited, DecidableEq

/-- Compares `a * 2 ^ p` and `b * 10 ^ s` after clearing negative powers. -/
def compareScaled (a : Nat) (p : Int) (b : Nat) (s : Int) : Ordering :=
  compare (a * Nat.pow 2 p.toNat * Nat.pow 10 (-s).toNat)
    (b * Nat.pow 10 s.toNat * Nat.pow 2 (-p).toNat)

/-- Whether the decimal lies in the rounding interval of the value. The ends are taken in quarters
of the last binary place, so that both are whole numbers. -/
def Binary.readsBack (value : Binary) (decimal : Digits) : Bool :=
  let low := 4 * value.mantissa - (if value.narrowBelow then 1 else 2)
  let high := 4 * value.mantissa + 2
  let quarter := value.exponent - 2
  let above := compareScaled low quarter decimal.digits decimal.scale
  let below := compareScaled high quarter decimal.digits decimal.scale
  let ends := value.mantissa % 2 = 0
  (above = .lt || (ends && above = .eq)) && (below = .gt || (ends && below = .eq))

/-- The largest decimal on the grid of step `10 ^ scale` that does not exceed the value. -/
def Binary.floorAt (value : Binary) (scale : Int) : Nat :=
  (value.mantissa * Nat.pow 2 value.exponent.toNat * Nat.pow 10 (-scale).toNat) /
    (Nat.pow 2 (-value.exponent).toNat * Nat.pow 10 scale.toNat)

/-- The least `k` at or above a first guess with `value < 10 ^ k`. -/
def Binary.magnitudeFrom (value : Binary) : Nat → Int → Int
  | 0, k => k
  | tries + 1, k =>
    if compareScaled value.mantissa value.exponent 1 k = .lt then k
    else value.magnitudeFrom tries (k + 1)

/-- The least `k` with `value < 10 ^ k`. The binary length, scaled by a lower bound of the
decimal logarithm of two, starts the search at most a few steps too low. -/
def Binary.magnitude (value : Binary) : Int :=
  let length := (Nat.log2 value.mantissa : Int) + value.exponent
  value.magnitudeFrom 8 (Int.fdiv (length * 30103) 100000 - 1)

/-- Of the two neighbours of the value on a grid, the closer one that identifies it. -/
def Binary.onGrid? (value : Binary) (scale : Int) : Option Digits :=
  let lower : Digits := { digits := value.floorAt scale, scale := scale }
  let upper : Digits := { digits := lower.digits + 1, scale := scale }
  match value.readsBack lower, value.readsBack upper with
  | true, true =>
    if compareScaled (2 * value.mantissa) value.exponent (lower.digits + upper.digits) scale = .lt
    then some lower else some upper
  | true, false => some lower
  | false, true => some upper
  | false, false => none

/-- The first grid, from `count` digits on, that holds a decimal identifying the value. -/
def Binary.search (value : Binary) (magnitude : Int) : Nat → Int → Option Digits
  | 0, _ => none
  | tries + 1, count =>
    match value.onGrid? (magnitude - count) with
    | some decimal => some decimal
    | none => value.search magnitude tries (count + 1)

/-- Moves trailing zeros of the digits into the scale. -/
def Digits.strip : Nat → Digits → Digits
  | 0, decimal => decimal
  | steps + 1, decimal =>
    if decimal.digits ≠ 0 && decimal.digits % 10 = 0 then
      Digits.strip steps { digits := decimal.digits / 10, scale := decimal.scale + 1 }
    else decimal

/-- The decimal with the fewest digits that identifies the value, and of those the closest. Every
value is identified by seventeen digits. -/
def Binary.shortest (value : Binary) : Digits :=
  let found := (value.search value.magnitude 17 1).getD
    { digits := value.floorAt (value.magnitude - 17), scale := value.magnitude - 17 }
  found.strip 20

end ClassFactory.Decimal
