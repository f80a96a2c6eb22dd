import FlowchartSlides.Json.Fault

/-!
# Numbers of a document

A number without fraction and exponent that fits 64 bits is an integer; every
other one is a 64-bit float, and so is minus zero. The float is found by one
product or quotient of the leading digits, as far as they fit 64 bits, with a
power of ten; it can miss the nearest float by a rounding.
-/
namespace FlowchartSlides.Json

inductive Number where
  | whole (value : Int)
  | real (value : Float)

namespace Number

def isDigit (c : Char) : Bool := c.isDigit

def digitValue (c : Char) : Nat := c.toNat - '0'.toNat

/-- Digits read so far, as far as they fit: their value, and how many were
taken and left. -/
structure Significand where
  value : Nat
  taken : Nat
  left : Nat

/-- Takes digits until the value would exceed `limit`; from the first digit that
does, all are left. -/
def accumulate (limit value : Nat) : List Char → Significand
  | [] => ⟨value, 0, 0⟩
  | d :: ds =>
    let next := value * 10 + digitValue d
    if next ≤ limit then
      let s := accumulate limit next ds
      { s with taken := s.taken + 1 }
    else ⟨value, 0, ds.length + 1⟩

/-- The greatest integer of 64 bits. -/
def wordLimit : Nat := 0xFFFFFFFFFFFFFFFF

/-- Exponents beyond this are not read to their end. -/
def exponentLimit : Nat := 0x7FFFFFFF

/-- The greatest power of ten that a 64-bit float holds. -/
def topPower : Nat := 308

/-- `x * 10 ^ exponent` by one product or quotient within the powers of ten that
floats hold, after at most `steps` quotients by the greatest one. -/
def scale : (steps : Nat) → Float → (exponent : Int) → Except Fault Float
  | 0, x, _ => .ok x
  | steps + 1, x, exponent =>
    if exponent.natAbs ≤ topPower then
      let power := Float.ofScientific 1 false exponent.natAbs
      if 0 ≤ exponent then
        let y := x * power
        if y.isInf then .error .numberTooLarge else .ok y
      else .ok (x / power)
    else if x == 0 then .ok x
    else if 0 ≤ exponent then .error .numberTooLarge
    else scale steps (x / Float.ofScientific 1 false topPower) (exponent + topPower)

/-- A float from its sign, leading digits and power of ten. -/
def ofParts (negative : Bool) (significand : Nat) (exponent : Int) : Except Fault Float := do
  let x ← scale 4 (Float.ofNat significand) exponent
  return if negative then -x else x

/-- Reads what follows the mark of an exponent. -/
def readExponent (negative : Bool) (significand : Nat) (start : Int) (cs : List Char) :
    Except Fault (Float × List Char) :=
  let (down, cs) := match cs with
    | '+' :: rest => (false, rest)
    | '-' :: rest => (true, rest)
    | _ => (false, cs)
  match cs.takeWhile isDigit, cs.dropWhile isDigit with
  | [], [] => .error (.ended .value)
  | [], _ :: _ => .error .badNumber
  | ds, rest =>
    let e := accumulate exponentLimit 0 ds
    if e.left = 0 then do
      let x ← ofParts negative significand (if down then start - e.value else start + e.value)
      return (x, rest)
    else if significand ≠ 0 && !down then .error .numberTooLarge
    else .ok (if negative then -0.0 else 0.0, rest)

/-- Reads what follows the point of a fraction. -/
def readFraction (negative : Bool) (significand : Nat) (start : Int) (cs : List Char) :
    Except Fault (Float × List Char) :=
  match cs.takeWhile isDigit, cs.dropWhile isDigit with
  | [], [] => .error (.ended .value)
  | [], _ :: _ => .error .badNumber
  | ds, rest =>
    let s := accumulate wordLimit significand ds
    let exponent := start - s.taken
    match rest with
    | c :: after =>
      if c = 'e' ∨ c = 'E' then readExponent negative s.value exponent after
      else do return (← ofParts negative s.value exponent, rest)
    | [] => do return (← ofParts negative s.value exponent, rest)

/-- An integer when it fits 64 bits with its sign and is not minus zero. -/
def ofWord (negative : Bool) (n : Nat) : Number :=
  if !negative then .whole n
  else if n = 0 ∨ 0x8000000000000000 < n then .real (-Float.ofNat n)
  else .whole (-n)

/-- Reads a number after its sign. -/
def readUnsigned (negative : Bool) (cs : List Char) : Except Fault (Number × List Char) :=
  match cs.takeWhile isDigit, cs.dropWhile isDigit with
  | [], [] => .error (.ended .value)
  | [], _ :: _ => .error .badNumber
  | '0' :: _ :: _, _ => .error .badNumber
  | ds, rest =>
    let s := accumulate wordLimit 0 ds
    let real (r : Except Fault (Float × List Char)) : Except Fault (Number × List Char) :=
      r.map fun (x, rest) => (.real x, rest)
    match rest with
    | '.' :: after => real (readFraction negative s.value s.left after)
    | c :: after =>
      if c = 'e' ∨ c = 'E' then real (readExponent negative s.value s.left after)
      else if s.left = 0 then .ok (ofWord negative s.value, rest)
      else real ((ofParts negative s.value s.left).map (·, rest))
    | [] =>
      if s.left = 0 then .ok (ofWord negative s.value, rest)
      else real ((ofParts negative s.value s.left).map (·, rest))

/-- Reads a number at its sign or first digit. -/
def read : List Char → Except Fault (Number × List Char)
  | '-' :: cs => readUnsigned true cs
  | cs => readUnsigned false cs

def found : Number → Found
  | whole n => .whole n
  | real x => .real x

/-- The nearest 32-bit number; floats are narrowed from 64 bits. -/
def toSingle : Number → Float32
  | whole n => Decimal.singleOfInt n
  | real x => Decimal.narrow x

end Number

end FlowchartSlides.Json
