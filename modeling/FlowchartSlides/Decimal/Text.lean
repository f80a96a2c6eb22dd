import FlowchartSlides.Decimal.Shortest

/-!
# How numbers are written

The digits come from `shortest`; a `Form` says how they are laid out. Two forms
serve the export (one per width) and one the notices, which never use an
exponent.
-/
namespace FlowchartSlides.Decimal

/-- The decisions of a written form. Exponents are those of the leading digit. -/
structure Form where
  /-- least exponent written positionally; none when there is no least one -/
  plainFrom : Option Int
  /-- greatest exponent written positionally; none when there is no greatest one -/
  plainTo : Option Int
  /-- whether integral values end in `.0` -/
  pointZero : Bool
  tie : Tie

/-- Exported 32-bit numbers are positional from a millionth up to 13 digits
before the point, and otherwise have a signed exponent. -/
def exportForm : Form := ⟨some (-6), some 12, true, .toEven⟩

/-- 64-bit numbers quoted in messages about a document. -/
def quotedForm : Form := ⟨some (-5), some 15, true, .toEven⟩

/-- Sizes in notices are always positional. -/
def noticeForm : Form := ⟨none, none, false, .up⟩

def zeros (n : Nat) : String := String.ofList (List.replicate n '0')

/-- Positional layout of digits with a leading exponent. -/
def plain (pointZero : Bool) (digits : List Char) (leading : Int) : String :=
  if leading < 0 then
    "0." ++ zeros (-leading - 1).toNat ++ String.ofList digits
  else
    let whole := leading.toNat + 1
    if digits.length ≤ whole then
      String.ofList digits ++ zeros (whole - digits.length) ++ if pointZero then ".0" else ""
    else
      String.ofList (digits.take whole) ++ "." ++ String.ofList (digits.drop whole)

/-- Layout with one digit before the point and a signed exponent. -/
def scientific (digits : List Char) (leading : Int) : String :=
  let mark := if leading < 0 then "e-" else "e+"
  let power := mark ++ toString leading.natAbs
  match digits with
  | [] => power
  | [d] => String.ofList [d] ++ power
  | d :: ds => String.ofList [d] ++ "." ++ String.ofList ds ++ power

/-- A decimal without sign in a given form. -/
def Form.lay (form : Form) (d : Numeral) : String :=
  let digits := Nat.toDigits 10 d.digits
  let leading := d.exponent + (digits.length - 1 : Nat)
  if form.plainFrom.all (· ≤ leading) && form.plainTo.all (leading ≤ ·) then
    plain form.pointZero digits leading
  else
    scientific digits leading

def signMark (negative : Bool) : String := if negative then "-" else ""

/-- The text of a bit pattern; `none` when it is no finite number. -/
def Form.finite? (form : Form) (r : Reading) : Option String :=
  match r with
  | .finite negative v => some (signMark negative ++ form.lay (shortest form.tie v))
  | _ => none

/-- An exported number; there is no text for NaN and the infinities. -/
def exported? (x : Float32) : Option String :=
  exportForm.finite? (Reading.ofBits single x.toBits.toNat)

/-- A 64-bit number as quoted in messages. -/
def quoted (x : Float) : String :=
  (quotedForm.finite? (Reading.ofBits double x.toBits.toNat)).getD "null"

/-- A size as notices give it. -/
def noticed (x : Float32) : String :=
  match Reading.ofBits single x.toBits.toNat with
  | .nan => "NaN"
  | .infinite negative => signMark negative ++ "inf"
  | .finite negative v => signMark negative ++ noticeForm.lay (shortest noticeForm.tie v)

end FlowchartSlides.Decimal
