import FlowchartSlides.Proofs.Values

/-!
# Rounding passes no number

The exact result of an operation need not be a number of the format. `Rounds x z` says that `z`
lies on the same side of every number as the exact result `x`, which is given in units of the
least positive number. Sums, differences and products are shown to round their exact results;
bounds on a computed number then come from the numbers below and above the exact one, and a
difference has the sign of the exact difference (`sub_lt_zero_iff`).
-/
namespace FlowchartSlides.Single

open Float.Model (Format UnpackedFloat totalExponent)
open Float.Model.UnpackedFloat

variable {m b : Nat} {e f : Int}

/-! ## Mantissas -/

theorem mantissa_shiftRight (n : Nat) (x : ExtendedMantissa) :
    (x >>> n).mantissa = x.mantissa / 2 ^ n := by
  show (n.repeat ExtendedMantissa.shiftRightOne x).mantissa = _
  induction n with
  | zero => rw [Nat.pow_zero, Nat.div_one]; rfl
  | succ n ih =>
    rw [Nat.pow_succ, ← Nat.div_div_eq_div_mul, ← ih]
    rfl

theorem le_roundedMantissa (x : ExtendedMantissa) : x.mantissa ≤ x.roundedMantissa := by
  obtain ⟨n, round, sticky⟩ := x
  cases round <;> cases sticky <;>
    simp only [ExtendedMantissa.roundedMantissa, ExtendedMantissa.accuracy,
      Accuracy.roundToNearestEven] <;> omega

/-- A mantissa rounded to a unit that is `2 ^ n` times as large. -/
def rounded (m n : Nat) : Nat :=
  (ExtendedMantissa.ofMantissaAndAccuracy m .exact >>> n).roundedMantissa

theorem rounded_le {n : Nat} (h : m ≤ b * 2 ^ n) : rounded m n ≤ b :=
  ((atMost_exact h).shiftRight n).roundedMantissa_le

theorem le_rounded {n : Nat} (h : b * 2 ^ n ≤ m) : b ≤ rounded m n := by
  refine le_trans ?_ (le_roundedMantissa _)
  rw [mantissa_shiftRight, mantissa_ofMantissaAndAccuracy]
  exact (Nat.le_div_iff_mul_le (Nat.two_pow_pos n)).mpr h

/-- The exponent to which a mantissa is rounded. -/
def target (m : Nat) (e : Int) : Int := Format.binary32.targetExponent (totalExponent m e)

theorem target_eq (m : Nat) (e : Int) : target m e = max (m.log2 + 1 + e - 24) (-149) :=
  targetExponent_eq m e

theorem le_target (m : Nat) (e : Int) : -149 ≤ target m e := by
  rw [target_eq]
  exact le_max_right _ _

theorem target_le (hb : b < 2 ^ 24) (hf : -149 ≤ f) : target b f ≤ f := by
  rw [target_eq]
  by_cases hzero : b = 0
  · subst hzero
    have hlog : Nat.log2 0 = 0 := by decide
    omega
  · have hlog : b.log2 < 24 := (Nat.log2_lt hzero).mpr hb
    omega

/-- A finer unit does not change the exponent to which the value is rounded. -/
theorem target_shiftLeft (hm : 0 < m) (e : Int) (n : Nat) :
    target (m <<< n) (e - n) = target m e := by
  have hlog : (m <<< n).log2 = m.log2 + n := by
    rw [Nat.shiftLeft_eq, Nat.log2_eq_iff (Nat.mul_pos hm (Nat.two_pow_pos n)).ne',
      Nat.add_right_comm, Nat.pow_add, Nat.pow_add _ (m.log2 + 1)]
    exact ⟨Nat.mul_le_mul_right _ (Nat.log2_self_le hm.ne'),
      Nat.mul_lt_mul_of_pos_right Nat.lt_log2_self (Nat.two_pow_pos n)⟩
  rw [target_eq, target_eq, hlog]
  omega

/-- A mantissa that is rounded to the exponent of the format has the bits of the format, or
one more when it has been rounded up to a power of two. -/
theorem rounded_target (hm : 0 < m) (he : e ≤ target m e) :
    rounded m (target m e - e).toNat ≤ 2 ^ 24 ∧
      (2 ^ 23 ≤ rounded m (target m e - e).toNat ∨ target m e = -149) := by
  have htarget := target_eq m e
  have hlow := Nat.log2_self_le (n := m) (by omega)
  have hhigh : m < 2 ^ (m.log2 + 1) := Nat.lt_log2_self
  refine ⟨rounded_le ?_, ?_⟩
  · rw [← Nat.pow_add]
    exact hhigh.le.trans (Nat.pow_le_pow_right (by omega) (by omega))
  · by_cases hleast : target m e = -149
    · exact Or.inr hleast
    · refine Or.inl (le_rounded ?_)
      rw [← Nat.pow_add]
      exact (Nat.pow_le_pow_right (by omega) (by omega)).trans hlow

/-! ## The rounded value lies between the same numbers as the exact one -/

theorem scaled_double (m : Nat) (he : -149 ≤ e) : scaled (m * 2) e = scaled m (e + 1) := by
  have hstep : (e + 1 + 149).toNat = (e + 149).toNat + 1 := by omega
  rw [scaled, scaled, hstep, Nat.pow_succ', Nat.mul_assoc]

/-- A number in the unit of the rounded value, and in the finer one of the exact value. -/
theorem scaled_coarse {t : Int} (he : -149 ≤ e) (het : e ≤ t) (htf : t ≤ f) :
    scaled b f = scaled (b <<< (f - t).toNat) t ∧
      scaled b f = scaled (b <<< (f - t).toNat * 2 ^ (t - e).toNat) e := by
  have hcoarse := scaled_finer b (he.trans het) htf
  have hfine := scaled_finer (b <<< (f - t).toNat) he het
  rw [Nat.shiftLeft_eq _ (t - e).toNat] at hfine
  exact ⟨hcoarse.symm, hcoarse.symm.trans hfine.symm⟩

/-- Rounding does not go up past a number. -/
theorem scaled_rounded_le (hm : 0 < m) (he : e ≤ target m e) (hlow : -149 ≤ e)
    (hb : Shaped b f) (h : scaled m e ≤ scaled b f) :
    scaled (rounded m (target m e - e).toNat) (target m e) ≤ scaled b f := by
  obtain ⟨hbits, hf, -⟩ := hb
  have htarget := target_eq m e
  have hle : target m e ≤ f := by
    have hpow : 2 ^ (m.log2 + (e + 149).toNat) < 2 ^ (24 + (f + 149).toNat) :=
      ((le_scaled (Nat.log2_self_le (by omega)) e).trans h).trans_lt (scaled_lt hbits f)
    have hexponent := (Nat.pow_lt_pow_iff_right (by omega)).mp hpow
    omega
  obtain ⟨hcoarse, hfine⟩ := scaled_coarse (b := b) hlow he hle
  rw [hfine, scaled_le_iff] at h
  rw [hcoarse, scaled_le_iff]
  exact rounded_le h

/-- Rounding does not go down past a number. -/
theorem le_scaled_rounded (hm : 0 < m) (he : e ≤ target m e) (hlow : -149 ≤ e)
    (hb : Shaped b f) (h : scaled b f ≤ scaled m e) :
    scaled b f ≤ scaled (rounded m (target m e - e).toNat) (target m e) := by
  obtain hle | hgt := le_or_gt (target m e) f
  · obtain ⟨hcoarse, hfine⟩ := scaled_coarse (b := b) hlow he hle
    rw [hfine, scaled_le_iff] at h
    rw [hcoarse, scaled_le_iff]
    exact le_rounded h
  · obtain ⟨hbits, hf, -⟩ := hb
    have hnormal := (rounded_target hm he).2.resolve_right (by omega)
    have hpow : 2 ^ (24 + (f + 149).toNat) ≤ 2 ^ (23 + (target m e + 149).toNat) :=
      Nat.pow_le_pow_right (by omega) (by omega)
    exact (scaled_lt hbits f).le.trans (hpow.trans (le_scaled hnormal _))

/-! ## What is packed -/

/-- The parts with a sign, a mantissa and an exponent. -/
def made (s : Sign) (m : Nat) (e : Int) : UnpackedFloat :=
  if h : m = 0 then .zero s else .finite s m e (Nat.pos_of_ne_zero h)

theorem units_made (s : Sign) (m : Nat) (e : Int) : units (made s m e) = s.apply (scaled m e) := by
  rw [made]
  split
  next h =>
    rw [h, scaled, Nat.zero_mul]
    cases s <;> rfl
  next => rfl

/-- What rounding makes of an exact mantissa. When the mantissa has been rounded up to a power
of two, a second shift takes off the bit too much. -/
theorem roundWithAccuracy_eq (s : Sign) (hm : 0 < m) (he : e ≤ target m e) :
    ∃ b f, Shaped b f ∧ scaled b f = scaled (rounded m (target m e - e).toNat) (target m e) ∧
      roundWithAccuracy .binary32 s m e .exact = made s b f := by
  obtain ⟨hbits, hnormal⟩ := rounded_target hm he
  have hlow := le_target m e
  have hfirst : e + ((target m e - e).toNat : Int) = target m e := by omega
  have hround : roundWithAccuracy .binary32 s m e .exact =
      let r := rounded m (target m e - e).toNat
      let n := (target r (target m e) - target m e).toNat
      made s (r / 2 ^ n) (target m e + n) := by
    let r := rounded m (target m e - e).toNat
    let f := e + ((target m e - e).toNat : Int)
    let shifted := ExtendedMantissa.ofMantissaAndAccuracy r .exact >>> (target r f - f).toNat
    show made s shifted.mantissa (f + (target r f - f).toNat) = _
    rw [mantissa_shiftRight, mantissa_ofMantissaAndAccuracy]
    simp only [f, hfirst, r]
  rw [hround]
  generalize rounded m (target m e - e).toNat = r at *
  generalize target m e = f at *
  obtain hlt | rfl := Nat.lt_or_eq_of_le hbits
  · have hn : (target r f - f).toNat = 0 := by
      have hle := target_le hlt hlow
      omega
    refine ⟨r, f, ⟨hlt, hlow, hnormal⟩, rfl, ?_⟩
    simp only [hn]
    rw [Nat.pow_zero, Nat.div_one, Int.natCast_zero, Int.add_zero]
  · have hlog : Nat.log2 (2 ^ 24) = 24 := by decide
    have hn : (target (2 ^ 24) f - f).toNat = 1 := by
      rw [target_eq, hlog]
      omega
    refine ⟨2 ^ 23, f + 1, ⟨by decide, by omega, Or.inl le_rfl⟩, ?_, ?_⟩
    · exact (scaled_double (2 ^ 23) hlow).symm
    · simp only [hn]
      rfl

theorem pack_overflow (s : Sign) (hm : 0 < m) (he : 105 ≤ e) :
    pack .binary32 (.finite s m e hm) = packedInfinity .binary32 s := by
  have hfield : (e + (Format.binary32.exponentBias : Nat) + (23 : Nat)).toNat =
      (e + 150).toNat := by
    rw [bias_eq]
    omega
  rw [pack]
  simp only [hfield]
  rw [if_pos (by omega)]

theorem parts_ofParts_overflow (s : Sign) (hm : 0 < m) (he : 105 ≤ e) :
    parts (ofParts (.finite s m e hm)) = .infinity s := by
  show unpack .binary32 (pack .binary32 (.finite s m e hm)) = .infinity s
  rw [pack_overflow s hm he]
  cases s <;> rfl

/-- What overflows becomes infinity, everything else of the right shape stays as it is. -/
theorem ofParts_made (s : Sign) (hb : Shaped b f) :
    (ofParts (made s b f)).isNaN = false ∧
      value (ofParts (made s b f)) = s.apply (min (scaled b f) beyond : Nat) := by
  obtain ⟨hbits, hlow, hnormal⟩ := id hb
  rw [isNaN_eq, value]
  obtain hle | hgt := le_or_gt f 104
  · have hcanonical : Canonical (made s b f) := by
      rw [made]
      split
      next => trivial
      next => exact ⟨hbits, hlow, hle, hnormal⟩
    have hlt : scaled b f < beyond := scaled_lt_scaled hb shaped_beyond (by omega)
    rw [parts_ofParts hcanonical, units_made, min_eq_left hlt.le]
    refine ⟨?_, rfl⟩
    rw [made]
    split <;> rfl
  · have hpos : b ≠ 0 := by omega
    have hge : beyond ≤ scaled b f := by
      obtain heq | hlt := Int.lt_or_eq_of_le (show 105 ≤ f by omega)
      · exact (scaled_lt_scaled shaped_beyond hb heq).le
      · subst hlt
        exact (scaled_le_iff _ _ _).mpr (by omega)
    rw [made, dif_neg hpos, parts_ofParts_overflow s _ hgt, min_eq_right hge]
    exact ⟨rfl, rfl⟩

/-! ## Rounded numbers -/

/-- A positive number has the shape of a finite one or of the number that would follow. -/
theorem exists_shaped {y : Float32} (hy : y.isNaN = false) (hpos : 0 < value y) :
    ∃ b f, Shaped b f ∧ value y = scaled b f ∧ scaled b f ≤ beyond := by
  have hcanonical := canonical_parts y
  rw [value] at hpos ⊢
  rw [isNaN_eq] at hy
  cases hparts : parts y with
  | notANumber =>
    rw [hparts] at hy
    cases hy
  | zero s =>
    rw [hparts] at hpos
    exact absurd hpos (lt_irrefl 0)
  | infinity s =>
    rw [hparts] at hpos
    cases s with
    | negative =>
      simp only [units, Sign.apply] at hpos
      omega
    | positive => exact ⟨2 ^ 23, 105, shaped_beyond, rfl, le_rfl⟩
  | finite s m e hm =>
    rw [hparts] at hpos hcanonical
    cases s with
    | negative =>
      simp only [units, Sign.apply] at hpos
      omega
    | positive => exact ⟨m, e, hcanonical.shaped, rfl, hcanonical.lt_beyond.le⟩

/-- A number lies on the same side of every number as an exact result, in units of the least
positive number. -/
structure Rounds (x : Int) (z : Float32) : Prop where
  isNaN : z.isNaN = false
  le : ∀ {y : Float32}, y.isNaN = false → x ≤ value y → value z ≤ value y
  ge : ∀ {y : Float32}, y.isNaN = false → value y ≤ x → value y ≤ value z

theorem Rounds.self {z : Float32} (hz : z.isNaN = false) : Rounds (value z) z :=
  ⟨hz, fun _ h => h, fun _ h => h⟩

/-- An exact result that is a number stays as it is. -/
theorem Rounds.value_eq {x : Int} {y z : Float32} (h : Rounds x z) (hy : y.isNaN = false)
    (hx : x = value y) : value z = value y :=
  le_antisymm (h.le hy hx.le) (h.ge hy hx.ge)

/-- Rounding sees the sign last: it is enough to compare with the positive numbers. -/
theorem rounds_apply {x r : Nat} {z : Float32} (s : Sign) (hx : 0 < x) (hnan : z.isNaN = false)
    (hz : value z = s.apply r)
    (hle : ∀ b f, Shaped b f → x ≤ scaled b f → r ≤ scaled b f)
    (hge : ∀ b f, Shaped b f → scaled b f ≤ beyond → scaled b f ≤ x → scaled b f ≤ r) :
    Rounds (s.apply x) z := by
  have hpos : ∀ y : Float32, y.isNaN = false → 0 < value y →
      ((x : Int) ≤ value y → (r : Int) ≤ value y) ∧ (value y ≤ x → value y ≤ r) := by
    intro y hy hypos
    obtain ⟨b, f, hshaped, heq, hbeyond⟩ := exists_shaped hy hypos
    have := hle b f hshaped
    have := hge b f hshaped hbeyond
    rw [heq]
    constructor <;> intro h <;> omega
  refine ⟨hnan, fun {y} hy h => ?_, fun {y} hy h => ?_⟩ <;> rw [hz] <;> cases s with
  | positive =>
    simp only [Sign.apply] at h ⊢
    have := hpos y hy
    omega
  | negative =>
    simp only [Sign.apply] at h ⊢
    have := hpos (-y) (by rwa [isNaN_neg])
    rw [value_neg] at this
    omega

theorem rounds_roundWithAccuracy (s : Sign) (hm : 0 < m) (he : e ≤ target m e) (hlow : -149 ≤ e) :
    Rounds (s.apply (scaled m e)) (ofParts (roundWithAccuracy .binary32 s m e .exact)) := by
  obtain ⟨b, f, hshaped, hscaled, hmade⟩ := roundWithAccuracy_eq s hm he
  obtain ⟨hnan, hvalue⟩ := ofParts_made s hshaped
  rw [hscaled] at hvalue
  rw [hmade]
  refine rounds_apply s (scaled_pos hm e) hnan hvalue ?_ ?_
  · intro b' f' hb' h
    exact (min_le_left _ _).trans (scaled_rounded_le hm he hlow hb' h)
  · intro b' f' hb' hb h
    exact le_min (le_scaled_rounded hm he hlow hb' h) hb

theorem rounds_round (s : Sign) (hm : 0 < m) (hlow : -149 ≤ e) :
    Rounds (s.apply (scaled m e)) (ofParts (Float.Model.UnpackedFloat.round .binary32 s m e)) := by
  let n := (e - target m e).toNat
  have htarget := le_target m e
  have hshift : -149 ≤ e - n := by omega
  have hsame := target_shiftLeft hm e n
  rw [← scaled_shiftLeft m hshift]
  refine rounds_roundWithAccuracy s ?_ (by omega) hshift
  rw [Nat.shiftLeft_eq]
  exact Nat.mul_pos hm (Nat.two_pow_pos n)

theorem rounds_normalize (i : Int) (hlow : -149 ≤ e) :
    Rounds (i * (2 ^ (e + 149).toNat : Nat))
      (ofParts (Float.Model.UnpackedFloat.normalize .binary32 i e .positive)) := by
  rw [Float.Model.UnpackedFloat.normalize]
  rcases lt_trichotomy i 0 with hneg | rfl | hpos
  · have hround := rounds_round .negative (m := (-i).toNat) (by omega) hlow
    rw [compare_lt_iff_lt.mpr hneg]
    have hexact : Sign.negative.apply (scaled (-i).toNat e) = i * (2 ^ (e + 149).toNat : Nat) := by
      rw [Sign.apply, scaled, Int.natCast_mul, ← Int.neg_mul]
      congr 1
      omega
    rwa [hexact] at hround
  · rw [compare_eq_iff_eq.mpr rfl, Int.zero_mul]
    have hzero : (ofParts (.zero .positive)).isNaN = false := rfl
    exact Rounds.self hzero
  · have hround := rounds_round .positive (m := i.toNat) (by omega) hlow
    rw [compare_gt_iff_gt.mpr hpos]
    have hexact : Sign.positive.apply (scaled i.toNat e) = i * (2 ^ (e + 149).toNat : Nat) := by
      rw [Sign.apply, scaled, Int.natCast_mul]
      congr 1
      omega
    rwa [hexact] at hround

theorem rounds_ofParts {u : UnpackedFloat} (h : Canonical u) (hu : u.isNaN = false) :
    Rounds (units u) (ofParts u) := by
  have hparts := parts_ofParts h
  have hself : Rounds (value (ofParts u)) (ofParts u) := Rounds.self (by rw [isNaN_eq, hparts, hu])
  rwa [value, hparts] at hself

end FlowchartSlides.Single
