import Quill.Number.Numeral

/-!
# Shortest digits

Data files write a double with the fewest digits that read back as the same double, and among
those with the nearest ones.  The numbers that read back as a double fill an interval around
it, whose ends belong to it when the significand is even; for each count of digits the two
neighbours of the value on that decimal grid are tried.
-/

namespace Quill.Number

/-- The numbers that round to one double, as numerators over a common denominator. -/
structure Interval where
  low : Nat
  value : Nat
  high : Nat
  denominator : Nat
  closed : Bool
  deriving DecidableEq, Repr

/-- The interval of a positive double.  The gap below a power of two is half the gap above
it, down to the smallest exponent. -/
def Binary.interval (value : Binary) : Interval :=
  let scale := twoPow value.exponent.toNat
  let narrow := value.significand = twoPow 52 ∧ -1074 < value.exponent
  { low := (4 * value.significand - if narrow then 1 else 2) * scale
    value := 4 * value.significand * scale
    high := (4 * value.significand + 2) * scale
    denominator := 4 * value.denominator
    closed := value.significand % 2 == 0 }

/-- Whether `digits * 10 ^ exponent` lies in the interval. -/
def Interval.holds (interval : Interval) (digits : Nat) (exponent : Int) : Bool :=
  let point := digits * tenPow exponent.toNat * interval.denominator
  let unit := tenPow (-exponent).toNat
  if interval.closed then
    decide (interval.low * unit ≤ point ∧ point ≤ interval.high * unit)
  else
    decide (interval.low * unit < point ∧ point < interval.high * unit)

/-- The value on the grid of `10 ^ exponent`, as a quotient. -/
def Interval.onGrid (interval : Interval) (exponent : Int) : Nat × Nat :=
  (interval.value * tenPow (-exponent).toNat, interval.denominator * tenPow exponent.toNat)

/-- The digits on the grid of `10 ^ exponent` that lie in the interval, the nearer ones if
both neighbours do, and the even ones if they are equally near. -/
def Interval.digitsAt? (interval : Interval) (exponent : Int) : Option Nat :=
  let (numerator, denominator) := interval.onGrid exponent
  let below := numerator / denominator
  match interval.holds below exponent, interval.holds (below + 1) exponent with
  | true, true => some (roundHalfEven numerator denominator)
  | true, false => some below
  | false, true => some (below + 1)
  | false, false => none

/-- Try ever finer grids; the last one takes the nearest point without a test. -/
def Interval.search (interval : Interval) : Nat → Int → Nat × Int
  | 0, exponent =>
    let (numerator, denominator) := interval.onGrid exponent
    (roundHalfEven numerator denominator, exponent)
  | finer + 1, exponent =>
    match interval.digitsAt? exponent with
    | some digits => (digits, exponent)
    | none => interval.search finer (exponent - 1)

/-- The shortest digits of a positive double, without zeros at the end; seventeen digits
always suffice. -/
def Binary.shortest (value : Binary) : Numeral :=
  let interval := value.interval
  let leading := leadingExponent interval.value interval.denominator
  let (digits, exponent) := interval.search 16 leading
  let written := decimalDigits digits
  let kept := dropTrailingZeros written
  ⟨kept, exponent + written.length - 1⟩

/-- Lay out shortest digits: positional from `1e-5` up to `1e16`, with at least one digit
behind the point, and with a bare exponent elsewhere. -/
def Numeral.plain (numeral : Numeral) : List Char :=
  if numeral.exponent < -5 ∨ 16 ≤ numeral.exponent then
    let sign := if numeral.exponent < 0 then '-' else '+'
    joinPoint (numeral.digits.take 1) (numeral.digits.drop 1) ++
      'e' :: sign :: decimalDigits numeral.exponent.natAbs
  else
    let (whole, fraction) := numeral.positional
    joinPoint whole (if fraction.isEmpty then ['0'] else fraction)

/-- The characters of a finite double in data files. -/
def Binary.plain (value : Binary) : List Char :=
  let sign := if value.negative then ['-'] else []
  if value.significand = 0 then sign ++ ['0', '.', '0'] else sign ++ value.shortest.plain

end Quill.Number
