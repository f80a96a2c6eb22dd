import FlowchartSlides.Proofs.Magnitudes

/-!
# Numbers by their values

Every finite number is a whole multiple of the least positive one, `2 ^ -149`. `value` counts
these multiples, and gives infinity the count of the number that would follow the greatest
one. Numbers that are not NaN compare as their values do (`compare_eq`), so the order of
32-bit numbers is that of integers.
-/
namespace FlowchartSlides.Single

open Float.Model (Format UnpackedFloat totalExponent)
open Float.Model.UnpackedFloat

/-- A mantissa with its exponent, in units of the least positive number. -/
def scaled (m : Nat) (e : Int) : Nat := m * 2 ^ (e + 149).toNat

variable {m m' : Nat} {e e' : Int}

theorem scaled_lt {a : Nat} (h : m < 2 ^ a) (e : Int) :
    scaled m e < 2 ^ (a + (e + 149).toNat) := by
  rw [scaled, Nat.pow_add]
  exact Nat.mul_lt_mul_of_pos_right h (Nat.two_pow_pos _)

theorem le_scaled {a : Nat} (h : 2 ^ a ≤ m) (e : Int) : 2 ^ (a + (e + 149).toNat) ≤ scaled m e := by
  rw [scaled, Nat.pow_add]
  exact Nat.mul_le_mul_right _ h

theorem scaled_pos (h : 0 < m) (e : Int) : 0 < scaled m e :=
  Nat.mul_pos h (Nat.two_pow_pos _)

theorem scaled_le_iff (m m' : Nat) (e : Int) : scaled m e ≤ scaled m' e ↔ m ≤ m' :=
  Nat.mul_le_mul_right_iff (Nat.two_pow_pos _)

theorem scaled_lt_iff (m m' : Nat) (e : Int) : scaled m e < scaled m' e ↔ m < m' :=
  Nat.mul_lt_mul_right (Nat.two_pow_pos _)

/-- A value in a finer unit. -/
theorem scaled_shiftLeft (m : Nat) {n : Nat} (he : -149 ≤ e - n) :
    scaled (m <<< n) (e - n) = scaled m e := by
  have hsplit : (e + 149).toNat = n + (e - n + 149).toNat := by omega
  rw [scaled, scaled, hsplit, Nat.pow_add, Nat.shiftLeft_eq, Nat.mul_assoc]

/-- A value in a finer unit, which is given. -/
theorem scaled_finer (m : Nat) {low : Int} (hlow : -149 ≤ low) (hle : low ≤ e) :
    scaled (m <<< (e - low).toNat) low = scaled m e := by
  have hshift := scaled_shiftLeft m (e := e) (n := (e - low).toNat) (by omega)
  rwa [show e - ((e - low).toNat : Int) = low by omega] at hshift

/-- A mantissa of 24 bits whose highest bit is set unless the exponent is the least one. -/
def Shaped (m : Nat) (e : Int) : Prop := m < 2 ^ 24 ∧ -149 ≤ e ∧ (2 ^ 23 ≤ m ∨ e = -149)

theorem Canonical.shaped {s : Sign} {hm : 0 < m} (h : Canonical (.finite s m e hm)) :
    Shaped m e :=
  ⟨h.1, h.2.1, h.2.2.2⟩

/-- Of two numbers of the format, the one with the greater exponent is the greater. -/
theorem scaled_lt_scaled (h : Shaped m e) (h' : Shaped m' e') (he : e < e') :
    scaled m e < scaled m' e' := by
  obtain ⟨hm, hlow, -⟩ := h
  obtain ⟨-, -, hnormal | hleast⟩ := h'
  · have hpow : 2 ^ (24 + (e + 149).toNat) ≤ 2 ^ (23 + (e' + 149).toNat) :=
      Nat.pow_le_pow_right (by omega) (by omega)
    exact (scaled_lt hm e).trans_le (hpow.trans (le_scaled hnormal e'))
  · omega

/-- Exponents come first in the order of the numbers of the format. -/
theorem compare_scaled (h : Shaped m e) (h' : Shaped m' e') :
    (compare e e').then (compare m m') = compare (scaled m e) (scaled m' e') := by
  rcases lt_trichotomy e e' with hlt | rfl | hgt
  · rw [compare_lt_iff_lt.mpr hlt, compare_lt_iff_lt.mpr (scaled_lt_scaled h h' hlt)]
    rfl
  · rw [compare_eq_iff_eq.mpr rfl]
    show compare m m' = compare (scaled m e) (scaled m' e)
    rcases lt_trichotomy m m' with hlt | rfl | hgt
    · rw [compare_lt_iff_lt.mpr hlt, compare_lt_iff_lt.mpr ((scaled_lt_iff m m' e).mpr hlt)]
    · rw [compare_eq_iff_eq.mpr rfl, compare_eq_iff_eq.mpr rfl]
    · rw [compare_gt_iff_gt.mpr hgt, compare_gt_iff_gt.mpr ((scaled_lt_iff m' m e).mpr hgt)]
  · rw [compare_gt_iff_gt.mpr hgt, compare_gt_iff_gt.mpr (scaled_lt_scaled h' h hgt)]
    rfl

/-- The number that would follow the greatest one. -/
def beyond : Nat := scaled (2 ^ 23) 105

theorem shaped_beyond : Shaped (2 ^ 23) 105 := ⟨by decide, by decide, Or.inl le_rfl⟩

theorem beyond_pos : 0 < beyond := scaled_pos (by decide) 105

theorem Canonical.lt_beyond {s : Sign} {hm : 0 < m} (h : Canonical (.finite s m e hm)) :
    scaled m e < beyond := by
  obtain ⟨-, -, hhigh, -⟩ := id h
  exact scaled_lt_scaled h.shaped shaped_beyond (by omega)

/-- The parts of a number in units of the least positive number. -/
def units : UnpackedFloat → Int
  | .notANumber => 0
  | .infinity s => s.apply beyond
  | .zero _ => 0
  | .finite s m e _ => s.apply (scaled m e)

theorem neg_apply (s : Sign) (n : Int) : (-s).apply n = -s.apply n := by
  cases s
  · exact (Int.neg_neg n).symm
  · rfl

theorem units_neg (u : UnpackedFloat) : units u.neg = -units u := by
  cases u <;> first | rfl | exact neg_apply _ _

theorem some_lt {a b : Int} (h : a < b) : some Ordering.lt = some (compare a b) := by
  rw [compare_lt_iff_lt.mpr h]

theorem some_gt {a b : Int} (h : b < a) : some Ordering.gt = some (compare a b) := by
  rw [compare_gt_iff_gt.mpr h]

theorem some_eq {a b : Int} (h : a = b) : some Ordering.eq = some (compare a b) := by
  rw [compare_eq_iff_eq.mpr h]

theorem compare_apply (s : Sign) (a b : Nat) :
    compare (s.apply a) (s.apply b) =
      if s == .negative then (compare a b).swap else compare a b := by
  rcases lt_trichotomy a b with h | rfl | h
  · rw [compare_lt_iff_lt.mpr h]
    cases s
    · exact compare_gt_iff_gt.mpr (by simp only [Sign.apply]; omega)
    · exact compare_lt_iff_lt.mpr (by simp only [Sign.apply]; omega)
  · rw [compare_eq_iff_eq.mpr rfl, compare_eq_iff_eq.mpr rfl]
    cases s <;> rfl
  · rw [compare_gt_iff_gt.mpr h]
    cases s
    · exact compare_lt_iff_lt.mpr (by simp only [Sign.apply]; omega)
    · exact compare_gt_iff_gt.mpr (by simp only [Sign.apply]; omega)

/-- Numbers compare as their units do. -/
theorem compare_eq {u v : UnpackedFloat} (hu : Canonical u) (hv : Canonical v)
    (hu' : u.isNaN = false) (hv' : v.isNaN = false) :
    u.compare v = some (compare (units u) (units v)) := by
  have hbeyond := beyond_pos
  cases u with
  | notANumber => cases hu'
  | infinity s =>
    cases v with
    | notANumber => cases hv'
    | infinity s' =>
      cases s <;> cases s'
      · exact some_eq rfl
      · exact some_lt (by simp only [units, Sign.apply]; omega)
      · exact some_gt (by simp only [units, Sign.apply]; omega)
      · exact some_eq rfl
    | zero s' =>
      cases s
      · exact some_lt (by simp only [units, Sign.apply]; omega)
      · exact some_gt (by simp only [units, Sign.apply]; omega)
    | finite s' m' e' hm' =>
      have hlt := hv.lt_beyond
      cases s
      · exact some_lt (by cases s' <;> simp only [units, Sign.apply] <;> omega)
      · exact some_gt (by cases s' <;> simp only [units, Sign.apply] <;> omega)
  | zero s =>
    cases v with
    | notANumber => cases hv'
    | infinity s' =>
      cases s'
      · exact some_gt (by simp only [units, Sign.apply]; omega)
      · exact some_lt (by simp only [units, Sign.apply]; omega)
    | zero s' => exact some_eq rfl
    | finite s' m' e' hm' =>
      have hpos := scaled_pos hm' e'
      cases s'
      · exact some_gt (by simp only [units, Sign.apply]; omega)
      · exact some_lt (by simp only [units, Sign.apply]; omega)
  | finite s m e hm =>
    have hpos := scaled_pos hm e
    have hlt := hu.lt_beyond
    cases v with
    | notANumber => cases hv'
    | infinity s' =>
      cases s'
      · exact some_gt (by cases s <;> simp only [units, Sign.apply] <;> omega)
      · exact some_lt (by cases s <;> simp only [units, Sign.apply] <;> omega)
    | zero s' =>
      cases s
      · exact some_lt (by simp only [units, Sign.apply]; omega)
      · exact some_gt (by simp only [units, Sign.apply]; omega)
    | finite s' m' e' hm' =>
      have hpos' := scaled_pos hm' e'
      have hcompare := compare_scaled hu.shaped hv.shaped
      cases s <;> cases s'
      · rw [units, units, compare_apply, ← hcompare]
        rfl
      · exact some_lt (by simp only [units, Sign.apply]; omega)
      · exact some_gt (by simp only [units, Sign.apply]; omega)
      · rw [units, units, compare_apply, ← hcompare]
        rfl

/-- A number in units of the least positive one. -/
def value (x : Float32) : Int := units (parts x)

@[simp] theorem value_zero : value 0 = 0 := rfl

@[simp] theorem value_neg (x : Float32) : value (-x) = -value x := by
  rw [value, parts_neg, units_neg, value]

theorem value_abs (x : Float32) : value x.abs = (value x).natAbs := by
  rw [value, value, parts_abs]
  cases parts x with
  | notANumber => rfl
  | zero s => rfl
  | infinity s => exact congrArg Int.ofNat (natAbs_apply s beyond).symm
  | finite s m e hm => exact congrArg Int.ofNat (natAbs_apply s (scaled m e)).symm

theorem isNaN_neg (x : Float32) : (-x).isNaN = x.isNaN := by
  rw [isNaN_eq, isNaN_eq, parts_neg]
  cases parts x <;> rfl

theorem isNaN_abs (x : Float32) : x.abs.isNaN = x.isNaN := by
  rw [isNaN_eq, isNaN_eq, parts_abs]
  cases parts x <;> rfl

variable {x y : Float32}

theorem compare_parts (hx : x.isNaN = false) (hy : y.isNaN = false) :
    (parts x).compare (parts y) = some (compare (value x) (value y)) :=
  compare_eq (canonical_parts x) (canonical_parts y) hx hy

theorem lt_iff_value (hx : x.isNaN = false) (hy : y.isNaN = false) :
    x < y ↔ value x < value y := by
  rw [lt_iff, compare_parts hx hy, Option.some_inj, compare_lt_iff_lt]

theorem beq_iff_value (hx : x.isNaN = false) (hy : y.isNaN = false) :
    (x == y) = true ↔ value x = value y := by
  change (parts x).beq (parts y) = true ↔ _
  rw [Float.Model.UnpackedFloat.beq, beq_iff_eq, compare_parts hx hy, Option.some_inj,
    compare_eq_iff_eq]

theorem isNaN_of_isFinite (h : x.isFinite = true) : x.isNaN = false := by
  rw [isFinite_eq] at h
  rw [isNaN_eq]
  cases hx : parts x with
  | notANumber => rw [hx] at h; cases h
  | _ => rfl

theorem compare_of_isNaN (h : x.isNaN = true ∨ y.isNaN = true) :
    (parts x).compare (parts y) = none := by
  rw [isNaN_eq, isNaN_eq] at h
  cases hx : parts x <;> cases hy : parts y <;> simp_all [Float.Model.UnpackedFloat.isNaN,
    Float.Model.UnpackedFloat.compare]

theorem beq_self_of_isFinite (h : x.isFinite = true) : (x == x) = true :=
  (beq_iff_value (isNaN_of_isFinite h) (isNaN_of_isFinite h)).mpr rfl

/-- NaN is neither less nor greater than anything. -/
theorem not_lt_of_isNaN (h : x.isNaN = true ∨ y.isNaN = true) : ¬ x < y := by
  rw [lt_iff, compare_of_isNaN h]
  exact nofun

theorem isNaN_of_beq (h : (x == y) = true) : x.isNaN = false ∧ y.isNaN = false := by
  have hcompare : (parts x).compare (parts y) = some .eq := by
    change (parts x).beq (parts y) = true at h
    rwa [Float.Model.UnpackedFloat.beq, beq_iff_eq] at h
  constructor
  · by_contra hx
    rw [compare_of_isNaN (Or.inl (Bool.eq_true_of_not_eq_false hx))] at hcompare
    cases hcompare
  · by_contra hy
    rw [compare_of_isNaN (Or.inr (Bool.eq_true_of_not_eq_false hy))] at hcompare
    cases hcompare

theorem not_lt_zero_iff (hx : x.isNaN = false) : ¬ x < 0 ↔ 0 ≤ value x := by
  rw [lt_iff_value hx rfl, value_zero, not_lt]

theorem neg_lt_zero_iff (x : Float32) : -x < 0 ↔ 0 < x := by
  cases hnan : x.isNaN with
  | true =>
    have hneg : (-x).isNaN = true := (isNaN_neg x).trans hnan
    exact iff_of_false (not_lt_of_isNaN (Or.inl hneg)) (not_lt_of_isNaN (Or.inr hnan))
  | false =>
    rw [lt_iff_value (by rwa [isNaN_neg]) rfl, lt_iff_value rfl hnan, value_neg, value_zero]
    omega

/-- Apart from NaN no number is its own opposite: the two zeros are told apart. -/
theorem neg_ne_self (hx : x.isNaN = false) : -x ≠ x := by
  intro heq
  have hparts := congrArg parts heq
  rw [parts_neg] at hparts
  rw [isNaN_eq] at hx
  cases hcase : parts x with
  | notANumber =>
    rw [hcase] at hx
    cases hx
  | _ s =>
    rw [hcase] at hparts
    cases s <;> cases hparts

/-- The smaller of two numbers has the smaller value. -/
theorem value_lesser (hx : x.isNaN = false) (hy : y.isNaN = false) :
    (lesser x y).isNaN = false ∧ value (lesser x y) = min (value x) (value y) := by
  rw [lesser]
  split
  next h => exact ⟨hx, (min_eq_left ((lt_iff_value hx hy).mp h).le).symm⟩
  next h =>
    rw [if_neg (ne_true_of_eq_false hy)]
    exact ⟨hy, (min_eq_right (not_lt.mp (mt (lt_iff_value hx hy).mpr h))).symm⟩

end FlowchartSlides.Single
