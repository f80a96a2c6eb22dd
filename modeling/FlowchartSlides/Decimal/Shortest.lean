import FlowchartSlides.Decimal.Binary

/-!
# The fewest digits that identify a number

The reals that round to a given binary number form an interval: from halfway
to its neighbour below to halfway to its neighbour above, ends included
exactly when the mantissa is even. `shortest` searches the decimal grids from
coarse to fine for a point of that interval next to the number; the first grid
with a hit wins, and of two hits the closer one. All comparisons are between
natural numbers over one common denominator.
-/
namespace FlowchartSlides.Decimal

/-- The value `digits * 10 ^ exponent`. -/
structure Numeral where
  digits : Nat
  exponent : Int
deriving Repr, DecidableEq

/-- Where an exact tie between two decimals of the same length goes. -/
inductive Tie where
  | toEven
  | up
deriving DecidableEq

/-- A value with its rounding interval, as numerators over one denominator. -/
structure Interval where
  low : Nat
  value : Nat
  high : Nat
  denominator : Nat
  closed : Bool

/-- The rounding interval of a number, in units of `10 ^ grid`. -/
def Binary.interval (x : Binary) (grid : Int) : Interval :=
  let up := twoPow (x.exponent - 2).toNat * tenPow (-grid).toNat
  { low := (if x.narrowBelow then 4 * x.mantissa - 1 else 4 * x.mantissa - 2) * up
    value := 4 * x.mantissa * up
    high := (4 * x.mantissa + 2) * up
    denominator := twoPow (2 - x.exponent).toNat * tenPow grid.toNat
    closed := x.mantissa % 2 == 0 }

/-- Whether the grid point number `n` lies in the interval. -/
def Interval.holds (i : Interval) (n : Nat) : Bool :=
  let at' := n * i.denominator
  if i.closed then decide (i.low ≤ at') && decide (at' ≤ i.high)
  else decide (i.low < at') && decide (at' < i.high)

/-- The point of the grid nearest to the value among the two around it that lie
in the interval. -/
def Interval.point? (i : Interval) (tie : Tie) : Option Nat :=
  let below := i.value / i.denominator
  let above := below + 1
  match i.holds below, i.holds above with
  | false, false => none
  | true, false => some below
  | false, true => some above
  | true, true =>
    match compare (2 * i.value) ((below + above) * i.denominator) with
    | .lt => some below
    | .gt => some above
    | .eq => match tie with
      | .up => some above
      | .toEven => some (if below % 2 = 0 then below else above)

/-- Whether the value lies below `10 ^ power`. -/
def Binary.below (x : Binary) (power : Int) : Bool :=
  decide (x.mantissa * twoPow x.exponent.toNat * tenPow (-power).toNat
    < tenPow power.toNat * twoPow (-x.exponent).toNat)

/-- The least power of ten above a positive value: an estimate from its binary
magnitude, corrected upwards by at most two. -/
def Binary.powerAbove (x : Binary) : Int :=
  let estimate := Int.fdiv ((Nat.log2 x.mantissa + x.exponent) * 30103) 100000
  if x.below estimate then estimate
  else if x.below (estimate + 1) then estimate + 1
  else estimate + 2

/-- Moves zeros at the end of the digits into the exponent; `fuel` bounds their number. -/
def Numeral.strip : (fuel : Nat) → Numeral → Numeral
  | 0, d => d
  | fuel + 1, d =>
    if d.digits % 10 = 0 ∧ d.digits ≠ 0 then strip fuel ⟨d.digits / 10, d.exponent + 1⟩ else d

/-- The value itself, which has a finite decimal expansion. -/
def Binary.exactly (x : Binary) : Numeral :=
  if 0 ≤ x.exponent then ⟨x.mantissa * twoPow x.exponent.toNat, 0⟩
  else ⟨x.mantissa * Nat.pow 5 (-x.exponent).toNat, x.exponent⟩

/-- Seventeen digits identify every number of the formats used here. -/
def digitLimit : Nat := 17

/-- The shortest decimal in the rounding interval, without zeros at its end. -/
def shortest (tie : Tie) (x : Binary) : Numeral :=
  if x.mantissa = 0 then ⟨0, 0⟩
  else
    let power := x.powerAbove
    let found := (List.range digitLimit).findSome? fun (n : Nat) =>
      let grid := power - (n + 1 : Nat)
      ((x.interval grid).point? tie).map (⟨·, grid⟩)
    (found.getD x.exactly).strip 1100

end FlowchartSlides.Decimal
