/-!
# Shortest decimals

The shortest decimal that reads back as a given float, written without an exponent. The reals that
are rounded to a float `m · 2 ^ q` form an interval around it, which holds its ends if `m` is
even. Of the decimal grids from coarse to fine, the first with a point in the interval gives the
digits, and of its points the one nearest to the float.
-/

namespace CommandSuite.Decimal

/-- The interval of the reals that are rounded to one float, over a common denominator. -/
structure Interval where
  low : Nat
  value : Nat
  high : Nat
  denominator : Nat
  closed : Bool

/-- The interval of the positive float `mantissa · 2 ^ exponent`. Below a power of two the floats
lie twice as close. -/
def Interval.ofFloat (mantissa : Nat) (exponent : Int) : Interval :=
  let low :=
    if mantissa = Nat.pow 2 52 && exponent ≠ -1074 then 4 * mantissa - 1 else 4 * mantissa - 2
  let scale := Nat.pow 2 (exponent - 2).toNat
  { low := low * scale
    value := 4 * mantissa * scale
    high := (4 * mantissa + 2) * scale
    denominator := Nat.pow 2 (2 - exponent).toNat
    closed := mantissa % 2 = 0 }

namespace Interval

/-- The same interval in units of `10 ^ power`. -/
def inUnits (i : Interval) (power : Int) : Interval :=
  let scale := Nat.pow 10 (-power).toNat
  { i with
    low := i.low * scale
    value := i.value * scale
    high := i.high * scale
    denominator := i.denominator * Nat.pow 10 power.toNat }

/-- Whether a whole number of units lies in the interval. -/
def holds (i : Interval) (n : Nat) : Bool :=
  let x := n * i.denominator
  if i.closed then i.low ≤ x && x ≤ i.high else i.low < x && x < i.high

/-- The whole number of units in the interval that is nearest to its value, if there is one. -/
def nearest? (i : Interval) : Option Nat :=
  let below := i.value / i.denominator
  let above := below + 1
  match i.holds below, i.holds above with
  | true, true =>
    if 2 * (i.value - below * i.denominator) ≤ i.denominator then some below else some above
  | true, false => some below
  | false, true => some above
  | false, false => none

/-- The digits and the power of ten of the coarsest grid from `10 ^ power` on that has a point in
the interval, if one of `fuel` grids has. -/
def coarsest (i : Interval) : Nat → Int → Nat × Int
  | 0, power => (0, power)
  | fuel + 1, power =>
    match (i.inUnits power).nearest? with
    | some n => (n, power)
    | none => coarsest i fuel (power - 1)

end Interval

/-- The decimal `digits · 10 ^ power` without an exponent, and with a point. -/
def positional (digits : Nat) (power : Int) : String :=
  let ds := Nat.toDigits 10 digits
  if 0 ≤ power then String.ofList (ds ++ List.replicate power.toNat '0') ++ ".0"
  else
    let places := (-power).toNat
    let padded := List.replicate (places + 1 - ds.length) '0' ++ ds
    String.ofList (padded.take (padded.length - places)) ++ "."
      ++ String.ofList (padded.drop (padded.length - places))

/-- The shortest text that reads back as the float. -/
def ofFloat (x : Float) : String :=
  if x.isNaN then "NaN"
  else
    let bits := x.toBits.toNat
    let sign := if bits / Nat.pow 2 63 = 1 then "-" else ""
    let fraction : Nat := bits % Nat.pow 2 52
    let biased : Nat := bits / Nat.pow 2 52 % Nat.pow 2 11
    if biased = 2047 then sign ++ "inf"
    else if biased = 0 && fraction = 0 then sign ++ "0.0"
    else
      let (mantissa, exponent) : Nat × Int :=
        if biased = 0 then (fraction, -1074) else (Nat.pow 2 52 + fraction, (biased : Int) - 1075)
      let (digits, power) := (Interval.ofFloat mantissa exponent).coarsest 800 330
      sign ++ positional digits power

end CommandSuite.Decimal
