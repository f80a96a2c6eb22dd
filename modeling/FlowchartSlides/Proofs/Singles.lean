import FlowchartSlides.Slide.Element
import Mathlib

/-!
# 32-bit numbers by their parts

A number is a NaN, an infinity, a zero with its sign, or a sign, a mantissa and
an exponent. What an operation does to a number is said of these parts, which
`parts` reads off the bit pattern; `parts_ofParts` says that the pattern which an
operation packs gives its parts back. What follows for sizes stands at the end:
an absolute value is never below zero, and neither is a size that has been
clamped, whatever it was before.
-/
namespace FlowchartSlides.Single

open Float.Model (Format UnpackedFloat)
open Float.Model.UnpackedFloat

/-- What a number is made of. -/
def parts (x : Float32) : UnpackedFloat := x.toModel.unpack

/-- The number that is made of parts. -/
def ofParts (u : UnpackedFloat) : Float32 := .ofModel (.pack u)

/-- The parts that a number can have: a mantissa of 24 bits whose highest bit is set
unless the exponent is the least one. -/
def Canonical : UnpackedFloat → Prop
  | .finite _ m e _ => m < 2 ^ 24 ∧ -149 ≤ e ∧ e ≤ 104 ∧ (2 ^ 23 ≤ m ∨ e = -149)
  | _ => True

theorem bias_eq : ((Format.binary32.exponentBias : Nat) : Int) = 127 := rfl

theorem toNat_implicit (f : BitVec 23) : (1#1 ++ f).toNat = 2 ^ 23 + f.toNat := by
  rw [BitVec.toNat_append, ← Nat.shiftLeft_add_eq_or_of_lt f.isLt]
  simp [Nat.shiftLeft_eq]

theorem finite_congr {s : Sign} {m m' : Nat} {e e' : Int} {h : 0 < m} {h' : 0 < m'}
    (hm : m = m') (he : e = e') : UnpackedFloat.finite s m e h = .finite s m' e' h' := by
  subst hm he
  rfl

theorem canonical_unpack (b : BitVec Format.binary32.numBits) :
    Canonical (unpack .binary32 b) := by
  have hm : (unpackMantissa b).toNat < 2 ^ 23 := (unpackMantissa b).isLt
  have he : (unpackExponent b).toNat < 2 ^ 8 := (unpackExponent b).isLt
  have himplicit := toNat_implicit (unpackMantissa b)
  rw [unpack]
  split
  next => split <;> trivial
  next htop =>
    have htop' : (unpackExponent b).toNat ≠ 255 := fun h => htop (BitVec.eq_of_toNat_eq h)
    split
    next hzero =>
      split
      next => trivial
      next =>
        have hzero' : (unpackExponent b).toNat = 0 := by rw [hzero]; rfl
        simp only [Canonical, bias_eq, hzero']
        omega
    next hzero =>
      have hzero' : (unpackExponent b).toNat ≠ 0 := fun h => hzero (BitVec.eq_of_toNat_eq h)
      simp only [Canonical, bias_eq, himplicit]
      omega

theorem canonical_parts (x : Float32) : Canonical (parts x) := canonical_unpack _

/-- The highest bit of a mantissa is not stored, as the exponent field tells that it is there. -/
theorem unpack_normal (s : Sign) {k m : Nat} (hk : 0 < k) (hk' : k < 255) (hm : 2 ^ 23 ≤ m)
    (hm' : m < 2 ^ 24) :
    unpack .binary32 (packComponents .binary32 s (.ofNat _ k) (.ofNat _ m)) =
      .finite s m (k - 150) (by omega) := by
  have hkey : (BitVec.ofNat 8 k).toNat = k := by
    rw [BitVec.toNat_ofNat]
    omega
  have hfraction : (BitVec.ofNat 23 m).toNat = m - 2 ^ 23 := by
    rw [BitVec.toNat_ofNat]
    omega
  have htop : BitVec.ofNat 8 k ≠ -1#8 := by
    intro h
    have h255 : (BitVec.ofNat 8 k).toNat = 255 := by rw [h]; rfl
    omega
  have hzero : BitVec.ofNat 8 k ≠ 0#8 := by
    intro h
    have h0 : (BitVec.ofNat 8 k).toNat = 0 := by rw [h]; rfl
    omega
  rw [unpack]
  simp only [unpackMantissa_packComponents, unpackExponent_packComponents,
    unpackSign_packComponents, Sign.ofBitVec_toBitVec]
  rw [if_neg htop, if_neg hzero]
  refine finite_congr ?_ ?_
  · rw [toNat_implicit, hfraction]
    omega
  · rw [hkey, bias_eq]
    omega

/-- Under the exponent field zero the mantissa is stored whole. -/
theorem unpack_subnormal (s : Sign) {m : Nat} (hm : 0 < m) (hm' : m < 2 ^ 23) :
    unpack .binary32 (packComponents .binary32 s 0#8 (.ofNat _ m)) = .finite s m (-149) hm := by
  have hfraction : (BitVec.ofNat 23 m).toNat = m := by
    rw [BitVec.toNat_ofNat]
    omega
  have hne : BitVec.ofNat 23 m ≠ 0#23 := by
    intro h
    have h0 : (BitVec.ofNat 23 m).toNat = 0 := by rw [h]; rfl
    omega
  have htop : 0#8 ≠ -1#8 := by decide
  rw [unpack]
  simp only [unpackMantissa_packComponents, unpackExponent_packComponents,
    unpackSign_packComponents, Sign.ofBitVec_toBitVec]
  rw [if_neg htop, if_pos trivial, dif_neg hne]
  exact finite_congr hfraction rfl

/-- What is packed for an exponent of the format, also when the mantissa is none of it. -/
theorem pack_finite (s : Sign) {m : Nat} {e : Int} (hm : 0 < m) (hlow : -149 ≤ e)
    (hhigh : e ≤ 104) :
    pack .binary32 (.finite s m e hm) =
      if m.log2 = 23 then packComponents .binary32 s (.ofNat _ (e + 150).toNat) (.ofNat _ m)
      else packComponents .binary32 s 0#8 (.ofNat _ m) := by
  have hfield : (e + (Format.binary32.exponentBias : Nat) + (23 : Nat)).toNat =
      (e + 150).toNat := by
    rw [bias_eq]
    omega
  have hbits : m.log2 + 1 = Format.binary32.mantissaBits ↔ m.log2 = 23 := Nat.add_right_cancel_iff
  rw [pack]
  simp only [hfield, hbits]
  rw [if_neg (by omega)]

theorem unpack_pack {u : UnpackedFloat} (h : Canonical u) :
    unpack .binary32 (pack .binary32 u) = u := by
  cases u with
  | notANumber => exact unpack_packedNaN
  | infinity s => cases s <;> rfl
  | zero s => exact unpack_packedZero
  | finite s m e hm =>
    obtain ⟨hlt, hlow, hhigh, hnormal⟩ := h
    rw [pack_finite s hm hlow hhigh]
    split
    next hlog =>
      have hbounds := (Nat.log2_eq_iff (by omega)).mp hlog
      rw [unpack_normal s (by omega) (by omega) hbounds.1 hbounds.2]
      exact finite_congr rfl (by omega)
    next hlog =>
      have hsmall : m < 2 ^ 23 := by
        have hle : m.log2 < 24 := (Nat.log2_lt (by omega)).mpr hlt
        exact (Nat.log2_lt (by omega)).mp (by omega)
      rw [unpack_subnormal s hm hsmall]
      exact finite_congr rfl (by omega)

@[simp] theorem parts_zero : parts 0 = .zero .positive := rfl

theorem parts_ofParts {u : UnpackedFloat} (h : Canonical u) : parts (ofParts u) = u :=
  unpack_pack h

theorem canonical_abs {u : UnpackedFloat} (h : Canonical u) : Canonical u.abs := by
  cases u <;> exact h

theorem canonical_neg {u : UnpackedFloat} (h : Canonical u) : Canonical u.neg := by
  cases u <;> exact h

@[simp] theorem parts_abs (x : Float32) : parts x.abs = (parts x).abs :=
  parts_ofParts (canonical_abs (canonical_parts x))

@[simp] theorem parts_neg (x : Float32) : parts (-x) = (parts x).neg :=
  parts_ofParts (canonical_neg (canonical_parts x))

theorem lt_iff {x y : Float32} : x < y ↔ (parts x).compare (parts y) = some .lt := by
  change decide (Float.Model.UnpackedFloat.lt (parts x) (parts y) = true) = true ↔ _
  rw [decide_eq_true_iff, Float.Model.UnpackedFloat.lt, beq_iff_eq]

theorem le_iff {x y : Float32} : x ≤ y ↔ ((parts x).compare (parts y)).any (·.isLE) = true := by
  change decide (Float.Model.UnpackedFloat.le (parts x) (parts y) = true) = true ↔ _
  rw [decide_eq_true_iff, Float.Model.UnpackedFloat.le]

theorem isNaN_eq (x : Float32) : x.isNaN = (parts x).isNaN := rfl

theorem isFinite_eq (x : Float32) : x.isFinite = (parts x).isFinite := rfl

theorem not_abs_lt_zero (x : Float32) : ¬ x.abs < 0 := by
  rw [lt_iff, parts_abs, parts_zero]
  cases parts x <;> simp [Float.Model.UnpackedFloat.abs, Float.Model.UnpackedFloat.compare]

theorem not_lt_zero_of_pos {x : Float32} (h : 0 < x) : ¬ x < 0 := by
  rw [lt_iff, parts_zero] at *
  cases hx : parts x with
  | notANumber => simp [Float.Model.UnpackedFloat.compare]
  | zero s => simp [Float.Model.UnpackedFloat.compare]
  | infinity s => cases s <;> simp_all [Float.Model.UnpackedFloat.compare]
  | finite s m e hm => cases s <;> simp_all [Float.Model.UnpackedFloat.compare]

theorem isNaN_of_pos {x : Float32} (h : 0 < x) : x.isNaN = false := by
  rw [lt_iff, parts_zero] at h
  rw [isNaN_eq]
  cases hx : parts x with
  | notANumber => simp [hx, Float.Model.UnpackedFloat.compare] at h
  | _ => rfl

end FlowchartSlides.Single
