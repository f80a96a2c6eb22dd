/-!
# Binary numbers as exact integers

A finite binary number is read off its bit pattern as `mantissa * 2 ^ exponent`
with its sign, and an exact value of that form is rounded back to a bit
pattern: to nearest, a tie to the even neighbour, beyond the largest finite
number to infinity. Everything here is exact integer arithmetic.
-/
namespace FlowchartSlides.Decimal

/-- The power of two with a natural exponent. -/
abbrev twoPow (n : Nat) : Nat := Nat.pow 2 n

/-- The power of ten with a natural exponent. -/
abbrev tenPow (n : Nat) : Nat := Nat.pow 10 n

/-- The field widths of an interchange format. -/
structure Width where
  fractionBits : Nat
  exponentBits : Nat
deriving DecidableEq

/-- The 32-bit format: all geometry is held in it. -/
def single : Width := ⟨23, 8⟩

/-- The 64-bit format: decimal numbers are first read into it. -/
def double : Width := ⟨52, 11⟩

namespace Width

/-- The exponent field that marks infinities and NaN. -/
def topField (w : Width) : Nat := twoPow w.exponentBits - 1

/-- The power of two of the least unit: that of the subnormal numbers. -/
def leastExponent (w : Width) : Int := 2 - twoPow (w.exponentBits - 1) - w.fractionBits

end Width

/-- The non-negative value `mantissa * 2 ^ exponent` of a finite number. The gap
to the number below is half the gap to the one above when `narrowBelow`. -/
structure Binary where
  mantissa : Nat
  exponent : Int
  narrowBelow : Bool
deriving Repr, DecidableEq

/-- What a bit pattern stands for. -/
inductive Reading where
  | nan
  | infinite (negative : Bool)
  | finite (negative : Bool) (value : Binary)
deriving Repr, DecidableEq

/-- Takes a bit pattern apart. -/
def Reading.ofBits (w : Width) (bits : Nat) : Reading :=
  let fraction := bits % twoPow w.fractionBits
  let field := bits / twoPow w.fractionBits % twoPow w.exponentBits
  let negative := bits / twoPow (w.fractionBits + w.exponentBits) % 2 == 1
  if field = w.topField then
    if fraction = 0 then .infinite negative else .nan
  else if field = 0 then
    .finite negative ⟨fraction, w.leastExponent, false⟩
  else
    .finite negative
      ⟨twoPow w.fractionBits + fraction, w.leastExponent + (field - 1),
        fraction == 0 && decide (1 < field)⟩

/-- `mantissa * 2 ^ shift` for any sign of the shift, a right shift rounding to
nearest with a tie to the even neighbour. -/
def shiftRound (mantissa : Nat) (shift : Int) : Nat :=
  if 0 ≤ shift then mantissa * twoPow shift.toNat
  else
    let unit := twoPow (-shift).toNat
    let low := mantissa / unit
    let twice := 2 * (mantissa % unit)
    if unit < twice || (unit == twice && low % 2 == 1) then low + 1 else low

/-- The bit pattern, without sign, of the number nearest to `mantissa * 2 ^ exponent`. -/
def nearestBits (w : Width) (mantissa : Nat) (exponent : Int) : Nat :=
  if mantissa = 0 then 0
  else
    let unit := max (Nat.log2 mantissa + exponent - w.fractionBits) w.leastExponent
    let significand := shiftRound mantissa (exponent - unit)
    min ((unit - w.leastExponent).toNat * twoPow w.fractionBits + significand)
      (w.topField * twoPow w.fractionBits)

/-- The 32-bit number nearest to a 64-bit one. -/
def narrow (x : Float) : Float32 :=
  match Reading.ofBits double x.toBits.toNat with
  | .nan => Float32.ofBits 0x7FC00000
  | .infinite negative => Float32.ofBits (if negative then 0xFF800000 else 0x7F800000)
  | .finite negative v =>
    let bits := UInt32.ofNat (nearestBits single v.mantissa v.exponent)
    Float32.ofBits (if negative then 0x80000000 ||| bits else bits)

/-- The 32-bit number nearest to an integer. -/
def singleOfInt (n : Int) : Float32 :=
  let bits := UInt32.ofNat (nearestBits single n.natAbs 0)
  Float32.ofBits (if n < 0 then 0x80000000 ||| bits else bits)

end FlowchartSlides.Decimal
