import FlowchartSlides.Proofs.Rounding

/-!
# Powers of two that bound 32-bit numbers

`Bounded k x` says that `x` is a finite number of at most `2 ^ k` without its sign.
Each operation of the slide's geometry has a bound that follows from those of its
operands: a sum or difference needs one power more, a product the sum of the powers,
and half of a number none. As long as the power does not pass 127 nothing overflows.
-/
namespace FlowchartSlides.Single

open Float.Model (Format UnpackedFloat totalExponent)
open Float.Model.UnpackedFloat

variable {k : Int}

theorem natAbs_apply (s : Sign) (n : Nat) : (s.apply n).natAbs = n := by
  cases s
  · exact Int.natAbs_neg n
  · rfl

theorem within_add (hk : -148 ≤ k) (hk' : k ≤ 127) {u v : UnpackedFloat}
    (hu : Within (k - 1) u) (hv : Within (k - 1) v) : Within k (add .binary32 u v) := by
  have hmono : k - 1 ≤ k := by omega
  obtain ⟨s, rfl⟩ | ⟨s, m, e, hm, rfl⟩ := hu.zero_or_finite
  · obtain ⟨s', rfl⟩ | ⟨s', m', e', hm', rfl⟩ := hv.zero_or_finite
    · cases s <;> cases s' <;> trivial
    · exact hv.mono hmono
  · obtain ⟨s', rfl⟩ | ⟨s', m', e', hm', rfl⟩ := hv.zero_or_finite
    · exact hu.mono hmono
    · obtain ⟨-, -, he, hm⟩ := hu
      obtain ⟨-, -, he', hm'⟩ := hv
      have hsum : 2 ^ (k - 1 - min e e').toNat + 2 ^ (k - 1 - min e e').toNat =
          2 ^ (k - min e e').toNat := by
        have hsucc : (k - min e e').toNat = (k - 1 - min e e').toNat + 1 := by omega
        rw [hsucc, Nat.pow_succ, Nat.mul_two]
      refine within_normalize (by omega) hk' _ (by omega) ?_
      refine (Int.natAbs_add_le _ _).trans ?_
      rw [natAbs_apply, natAbs_apply, ← hsum]
      exact Nat.add_le_add (shiftLeft_le hm (by omega)) (shiftLeft_le hm' (by omega))

theorem sub_eq_add (u v : UnpackedFloat) : sub .binary32 u v = add .binary32 u v.neg := by
  cases u with
  | finite s m e hm =>
    cases v with
    | finite s' m' e' hm' => cases s' <;> simp [sub, add, neg, Sign.apply, Int.sub_eq_add_neg]
    | _ => rfl
  | _ => cases v <;> rfl

theorem within_neg {u : UnpackedFloat} (hu : Within k u) : Within k u.neg := by
  cases u <;> exact hu

theorem within_abs {u : UnpackedFloat} (hu : Within k u) : Within k u.abs := by
  cases u <;> exact hu

theorem within_sub (hk : -148 ≤ k) (hk' : k ≤ 127) {u v : UnpackedFloat}
    (hu : Within (k - 1) u) (hv : Within (k - 1) v) : Within k (sub .binary32 u v) := by
  rw [sub_eq_add]
  exact within_add hk hk' hu (within_neg hv)

/-- The room that the mantissa of a number of the format takes below its bound. -/
theorem Canonical.exponent_le {s : Sign} {m : Nat} {e : Int} {hm : 0 < m}
    (hc : Canonical (.finite s m e hm)) (h : Within k (.finite s m e hm)) :
    e ≤ k - 23 ∨ e = -149 := by
  obtain ⟨-, -, -, hnormal | hleast⟩ := hc
  · have hpow : 23 ≤ (k - e).toNat :=
      (Nat.pow_le_pow_iff_right (by omega)).mp (hnormal.trans h.2.2.2)
    omega
  · exact Or.inr hleast

theorem mul_finite (s s' : Sign) {m m' : Nat} (e e' : Int) (hm : 0 < m) (hm' : 0 < m') :
    mul .binary32 (.finite s m e hm) (.finite s' m' e' hm') =
      roundWithAccuracy .binary32 (s * s') (m * m') (e + e') .exact :=
  rfl

theorem within_mul {a b : Int} (hab : -149 ≤ a + b) (hab' : a + b ≤ 127) {u v : UnpackedFloat}
    (hcu : Canonical u) (hcv : Canonical v) (hu : Within a u) (hv : Within b v) :
    Within (a + b) (mul .binary32 u v) := by
  obtain ⟨s, rfl⟩ | ⟨s, m, e, hm, rfl⟩ := hu.zero_or_finite
  · obtain ⟨s', rfl⟩ | ⟨s', m', e', hm', rfl⟩ := hv.zero_or_finite <;> trivial
  · obtain ⟨s', rfl⟩ | ⟨s', m', e', hm', rfl⟩ := hv.zero_or_finite
    · trivial
    · have hleast := hcu.exponent_le hu
      have hleast' := hcv.exponent_le hv
      obtain ⟨-, hhigh, he, hm⟩ := hu
      obtain ⟨-, hhigh', he', hm'⟩ := hv
      have hsplit : (a + b - (e + e')).toNat = (a - e).toNat + (b - e').toNat := by omega
      refine within_roundWithAccuracy hab hab' _ (by omega) ⟨by omega, atMost_exact ?_⟩
      rw [hsplit, Nat.pow_add]
      exact Nat.mul_le_mul hm hm'

theorem within_ofNat {n k : Nat} (hk : k ≤ 127) (h : n ≤ 2 ^ k) :
    Within k (ofNat .binary32 n) := by
  refine within_normalize (by omega) (by omega) _ (by omega) ?_
  simpa using h

/-- A number with the power zero of ten is a product with one. -/
theorem within_ofScientific {n k : Nat} (hk : k ≤ 127) (hn : n ≠ 0) (h : n ≤ 2 ^ k) :
    Within k (ofScientific .binary32 n 0) := by
  have hlimit : (2 : Int) ^ Format.binary32.exponentBits = 256 := rfl
  have hbits : Format.binary32.mantissaBits = 24 := rfl
  have hshift : n <<< 24 ≤ 2 ^ ((k : Int) - -(24 : Nat)).toNat := shiftLeft_le h (by omega)
  rw [ofScientific, dif_neg hn, if_neg (by omega), if_neg (by omega), if_pos (by omega),
    mul_finite, hbits, Int.toNat_zero, Nat.pow_zero, Nat.mul_one, Int.add_zero]
  -- an opaque mantissa, or the rounding is evaluated on it
  generalize n <<< 24 = m at hshift ⊢
  exact within_roundWithAccuracy (by omega) (by omega) _ (by omega)
    ⟨by omega, atMost_exact hshift⟩

theorem parts_two : parts 2 = .finite .positive (2 ^ 23) (-22) (by decide) := rfl

/-- Half of a number has the bound of the number. -/
theorem within_half (hk : -149 ≤ k) (hk' : k ≤ 127) {u : UnpackedFloat} (hu : Within k u) :
    Within k (div .binary32 u (parts 2)) := by
  rw [parts_two]
  obtain ⟨s, rfl⟩ | ⟨s, m, e, hm, rfl⟩ := hu.zero_or_finite
  · trivial
  · obtain ⟨-, -, he, hle⟩ := hu
    have hlog := log2_le hle
    let low := min (e + 22) (max (m.log2 + 1 + e - 2 - 24) (-149))
    have hquotient : m <<< (e + 22 - low).toNat / 2 ^ 23 < 2 ^ (k - low).toNat := by
      have hsplit : (k + 22 - low).toNat + 1 = 23 + (k - low).toNat := by omega
      have hshift : m <<< (e + 22 - low).toNat ≤ 2 ^ (k + 22 - low).toNat :=
        shiftLeft_le hle (by omega)
      refine Nat.div_lt_of_lt_mul ?_
      rw [← Nat.pow_add, ← hsplit]
      exact hshift.trans_lt (Nat.pow_lt_pow_succ (by omega))
    have hlow : low ≤ k ∧ low ≤ 104 := by omega
    exact within_roundWithAccuracy (e := low) hk hk' _ hlow.2 ⟨hlow.1, atMost_of_lt hquotient _⟩

/-- What is packed keeps its bound, also where the format has no such mantissa. -/
theorem within_unpack_pack (hk : -149 ≤ k) {u : UnpackedFloat} (hu : Within k u) :
    Within k (unpack .binary32 (pack .binary32 u)) := by
  obtain ⟨s, rfl⟩ | ⟨s, m, e, hm, rfl⟩ := hu.zero_or_finite
  · rw [pack, unpack_packedZero]
    trivial
  · obtain ⟨hlow, hhigh, he, hle⟩ := hu
    rw [pack_finite s hm hlow hhigh]
    split
    next hlog =>
      have hnormal := (Nat.log2_eq_iff (by omega)).mp hlog
      have hsame : ((e + 150).toNat : Int) - 150 = e := by omega
      rw [unpack_normal s (by omega) (by omega) hnormal.1 hnormal.2]
      exact ⟨by omega, by omega, by omega, by rwa [hsame]⟩
    next =>
      have hfraction : BitVec.ofNat 23 m = BitVec.ofNat 23 (m % 2 ^ 23) := by
        refine BitVec.eq_of_toNat_eq ?_
        rw [BitVec.toNat_ofNat, BitVec.toNat_ofNat, Nat.mod_mod]
      rw [hfraction]
      by_cases hzero : m % 2 ^ 23 = 0
      · rw [hzero]
        cases s <;> trivial
      · rw [unpack_subnormal s (by omega) (by omega)]
        have hpow : 2 ^ (k - e).toNat ≤ 2 ^ (k - -149).toNat :=
          Nat.pow_le_pow_right (by omega) (by omega)
        exact ⟨by omega, by omega, hk, (Nat.mod_le m _).trans (hle.trans hpow)⟩

/-- A 32-bit number of at most `2 ^ k`, without its sign. -/
def Bounded (k : Int) (x : Float32) : Prop := Within k (parts x)

namespace Bounded

variable {i j : Int} {x y : Float32}

theorem mono (hx : Bounded j x) (h : j ≤ k := by omega) : Bounded k x := Within.mono h hx

theorem of_ofParts (hk : -149 ≤ k) {u : UnpackedFloat} (hu : Within k u) : Bounded k (ofParts u) :=
  within_unpack_pack hk hu

theorem isFinite (hx : Bounded k x) : x.isFinite = true := by
  rw [isFinite_eq]
  obtain ⟨s, hs⟩ | ⟨s, m, e, hm, hs⟩ := Within.zero_or_finite hx
  · rw [hs]
    rfl
  · rw [hs]
    rfl

theorem neg (hx : Bounded k x) : Bounded k (-x) := by
  rw [Bounded, parts_neg]
  exact within_neg hx

theorem abs (hx : Bounded k x) : Bounded k x.abs := by
  rw [Bounded, parts_abs]
  exact within_abs hx

theorem add (hx : Bounded i x) (hy : Bounded j y) (hi : i < k := by omega)
    (hj : j < k := by omega) (hk : -148 ≤ k := by omega) (hk' : k ≤ 127 := by omega) :
    Bounded k (x + y) :=
  of_ofParts (by omega) (within_add hk hk' (hx.mono (by omega)) (hy.mono (by omega)))

theorem sub (hx : Bounded i x) (hy : Bounded j y) (hi : i < k := by omega)
    (hj : j < k := by omega) (hk : -148 ≤ k := by omega) (hk' : k ≤ 127 := by omega) :
    Bounded k (x - y) :=
  of_ofParts (by omega) (within_sub hk hk' (hx.mono (by omega)) (hy.mono (by omega)))

theorem mul (hx : Bounded j x) (hy : Bounded k y) (hjk : -149 ≤ j + k := by omega)
    (hjk' : j + k ≤ 127 := by omega) : Bounded (j + k) (x * y) :=
  of_ofParts hjk (within_mul hjk hjk' (canonical_parts x) (canonical_parts y) hx hy)

theorem half (hx : Bounded k x) (hk : -149 ≤ k := by omega) (hk' : k ≤ 127 := by omega) :
    Bounded k (x / 2) :=
  of_ofParts hk (within_half hk hk' hx)

/-- Small numbers are converted by a product with one, large ones from their scientific form. -/
theorem ofNat {n k : Nat} (hk : k ≤ 127) (h : n ≤ 2 ^ k) : Bounded k (Float32.ofNat n) := by
  show Bounded k (Float32.ofScientific n false 0)
  rw [Float32.ofScientific]
  split
  next hsmall =>
    have hword : n.toUInt64.toNat = n := by
      rw [Nat.toUInt64, UInt64.toNat_ofNat']
      omega
    have hn : Bounded k n.toUInt64.toFloat32 :=
      of_ofParts (by omega) (within_ofNat hk (hword.symm ▸ h))
    have hone : Bounded 0 (Float32.ofBits 0x3F800000) :=
      ⟨by decide, by decide, by decide, by decide⟩
    exact mul hn hone
  next hlarge => exact of_ofParts (by omega) (within_ofScientific hk (by omega) h)

end Bounded

end FlowchartSlides.Single
