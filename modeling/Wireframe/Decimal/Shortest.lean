/-!
# The fewest digits of a float

A 32-bit float stands for an interval: the reals that are nearer to it than to
any other float, ends included for an even mantissa. The decimal that is
written for it is the one in that interval with the coarsest last place, and
of two such the nearer, the upper one at a tie.

The interval is compared with decimals in natural numbers. A positive float is
`mantissa · 2 ^ exponent`, and a quarter of its last bit is the unit in which
both ends of the interval are whole.
-/

namespace Wireframe

/-- A positive float, with the interval of the reals that round to it. -/
structure Binary where
  mantissa : Nat
  exponent : Int
  /-- Whether the float below is only half as far away as the one above. -/
  narrowBelow : Bool
  deriving DecidableEq, Repr

/-- The number `digits · 10 ^ place`. -/
structure Decimal where
  digits : Nat
  place : Int
  deriving DecidableEq, Repr

namespace Binary

/-- The fraction and exponent fields of a finite positive 32-bit float. -/
def ofFields (fraction exponent : Nat) : Binary :=
  if exponent = 0 then ⟨fraction, -149, false⟩
  else ⟨0x800000 + fraction, (exponent : Int) - 150, fraction == 0 && exponent != 1⟩

/-- The lower end of the interval, in quarters of the last bit. -/
def lowQuarters (b : Binary) : Nat := 4 * b.mantissa - if b.narrowBelow then 1 else 2

/-- The upper end of the interval, in quarters of the last bit. -/
def highQuarters (b : Binary) : Nat := 4 * b.mantissa + 2

/-- The last bit is `bitNumerator / bitDenominator` times `10 ^ place`. -/
def bitNumerator (b : Binary) (place : Int) : Nat :=
  Nat.pow 2 b.exponent.toNat * Nat.pow 10 (-place).toNat

/-- See `bitNumerator`. -/
def bitDenominator (b : Binary) (place : Int) : Nat :=
  Nat.pow 2 (-b.exponent).toNat * Nat.pow 10 place.toNat

/-- Whether `d · 10 ^ place` rounds to the float. -/
def readsBack (b : Binary) (d : Nat) (place : Int) : Bool :=
  let low := b.lowQuarters * b.bitNumerator place
  let high := b.highQuarters * b.bitNumerator place
  let value := 4 * d * b.bitDenominator place
  if b.mantissa % 2 = 0 then low ≤ value && value ≤ high else low < value && value < high

/-- The multiple of `10 ^ place` that is written, if one rounds to the float:
of the two next to the float the nearer, the upper one at a tie. -/
def atPlace? (b : Binary) (place : Int) : Option Nat :=
  let num := b.mantissa * b.bitNumerator place
  let den := b.bitDenominator place
  let below := num / den
  match b.readsBack below place, b.readsBack (below + 1) place with
  | true, true => some (if den ≤ 2 * (num - below * den) then below + 1 else below)
  | true, false => some below
  | false, true => some (below + 1)
  | false, false => none

/-- Tries `n` places downwards, and gives up with the exact value. -/
def searchFrom (b : Binary) : Nat → Int → Decimal
  | 0, place => ⟨b.mantissa * b.bitNumerator place / b.bitDenominator place, place⟩
  | n + 1, place =>
    match b.atPlace? place with
    | some digits => ⟨digits, place⟩
    | none => searchFrom b n (place - 1)

/-- The decimal that is written. Places are tried from above the greatest float
down to the last digit of the least. -/
def shortest (b : Binary) : Decimal := b.searchFrom 189 39

end Binary

/-- A decimal in full, without an exponent and without trailing zeros after
the point. -/
def Decimal.text (d : Decimal) : String :=
  let digits := Nat.toDigits 10 d.digits
  if 0 ≤ d.place then String.ofList (digits ++ .replicate d.place.toNat '0')
  else
    let places := (-d.place).toNat
    if places < digits.length then
      let whole := digits.length - places
      String.ofList (digits.take whole ++ '.' :: digits.drop whole)
    else String.ofList ('0' :: '.' :: .replicate (places - digits.length) '0' ++ digits)

end Wireframe
