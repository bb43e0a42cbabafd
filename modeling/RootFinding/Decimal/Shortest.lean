import RootFinding.Decimal.Layout

/-!
# Shortest decimals

A double is written with the fewest digits that read back to it, and with the digits nearest to it
among those. The numbers that read back are an interval around the double: half way to each
neighbour, the ends included where the mantissa is even. A decimal grid that has a point in the
interval has one next to the double, so it is enough to look at the two neighbours on each grid.
-/

namespace RootFinding

namespace Decimal

/-- The interval that reads back to a double, in quarter units of its mantissa. -/
structure RoundingInterval where
  low : Nat
  value : Nat
  high : Nat
  closed : Bool
  deriving Repr, DecidableEq

/-- The interval of a positive mantissa; below a power of two the neighbour is twice as near. -/
def RoundingInterval.ofMantissa (mantissa : Nat) (exponent : Int) : RoundingInterval where
  low :=
    if mantissa = BinaryValue.leadingBit && -1074 < exponent then 4 * mantissa - 1
    else 4 * mantissa - 2
  value := 4 * mantissa
  high := 4 * mantissa + 2
  closed := mantissa % 2 = 0

/--
The point `count · step` of a grid lies in the interval; `unit` is the quarter unit on the same
scale as `step`.
-/
def RoundingInterval.holds (interval : RoundingInterval) (unit step count : Nat) : Bool :=
  if interval.closed then
    interval.low * unit ≤ count * step && count * step ≤ interval.high * unit
  else interval.low * unit < count * step && count * step < interval.high * unit

/-- The grid point next to the double that reads back, the nearer one if both do. -/
def nearestOnGrid? (interval : RoundingInterval) (unit step : Nat) : Option Nat :=
  let exact := interval.value * unit
  let below := exact / step
  match interval.holds unit step below, interval.holds unit step (below + 1) with
  | true, true =>
      let fromBelow := exact - below * step
      let toAbove := (below + 1) * step - exact
      if fromBelow < toAbove || (fromBelow = toAbove && below % 2 = 0) then some below
      else some (below + 1)
  | true, false => some below
  | false, true => some (below + 1)
  | false, false => none

/-- Search the grids of `used + 1`, `used + 2`, … digits, at most `fuel` of them. -/
def shortestFrom (mantissa : Nat) (exponent leading : Int) : (fuel used : Nat) → Nat × Int
  | 0, _ => (mantissa <<< exponent.toNat, 0)
  | fuel + 1, used =>
      let place := leading - used
      let quarter := exponent - 2
      let unit := powerOfTen (-place).toNat <<< quarter.toNat
      let step := powerOfTen place.toNat <<< (-quarter).toNat
      match nearestOnGrid? (.ofMantissa mantissa exponent) unit step with
      | some count => (count, place)
      | none => shortestFrom mantissa exponent leading fuel (used + 1)

/-- The digits and the place of the last of them, for a positive mantissa. -/
def shortestDigits (mantissa : Nat) (exponent : Int) : Nat × Int :=
  let leading := leadingExponent (mantissa <<< exponent.toNat) (1 <<< (-exponent).toNat)
  shortestFrom mantissa exponent leading 17 0

/-- Positional from `10 ^ -4` to below `10 ^ 16`, always with a decimal; else with an exponent. -/
def shortestLayout (count : Nat) (place : Int) : List Char :=
  let written := (Nat.toDigits 10 count).reverse
  let digits := (written.dropWhile (· = '0')).reverse
  let exponent : Int := place + written.length - 1
  if -4 ≤ exponent && exponent < 16 then
    if exponent < 0 then
      '0' :: '.' :: List.replicate (exponent.natAbs - 1) '0' ++ digits
    else
      let whole := exponent.toNat + 1
      let padded := digits ++ List.replicate (whole - digits.length) '0'
      let decimals := padded.drop whole
      padded.take whole ++ '.' :: (if decimals.isEmpty then ['0'] else decimals)
  else
    let decimals := digits.drop 1
    digits.take 1 ++ (if decimals.isEmpty then [] else '.' :: decimals) ++ exponentMark exponent

/-- The shortest text that reads back; the sign of zero is kept. -/
def shortest (value : Float) : String :=
  match BinaryValue.ofDouble value with
  | .undefined => "nan"
  | .infinite negative => signed negative "inf".toList
  | .finite negative mantissa exponent =>
      if mantissa = 0 then signed negative "0.0".toList
      else
        let (count, place) := shortestDigits mantissa exponent
        signed negative (shortestLayout count place)

end Decimal

end RootFinding
