import FlowchartSlides.Proofs.RoundedValues

/-!
# Sums, differences, products and conversions

Each operation of the layout rounds its exact result: a sum or difference of finite numbers, a
sum of numbers that are not below zero and a product of numbers that are at least 1, both also
where they overflow, and the conversion of a natural number of any size. A difference has the
sign of the exact difference for all operands (`sub_lt_zero_iff`).
-/
namespace FlowchartSlides.Single

open Float.Model (Format UnpackedFloat totalExponent)
open Float.Model.UnpackedFloat

variable {m b : Nat} {e f : Int}

/-! ## Sums and differences -/

theorem apply_scaled (s : Sign) (m : Nat) (e : Int) :
    s.apply (scaled m e : Nat) = s.apply m * (2 ^ (e + 149).toNat : Nat) := by
  cases s
  · rw [Sign.apply, Sign.apply, scaled, Int.natCast_mul, Int.neg_mul]
  · rw [Sign.apply, Sign.apply, scaled, Int.natCast_mul]

theorem rounds_add_parts {u v : UnpackedFloat} (hu : Canonical u) (hv : Canonical v)
    (hu' : u.isFinite = true) (hv' : v.isFinite = true) :
    Rounds (units u + units v) (ofParts (add .binary32 u v)) := by
  cases u with
  | notANumber => cases hu'
  | infinity s => cases hu'
  | zero s =>
    have hzero : units (.zero s) + units v = units v := Int.zero_add _
    rw [hzero]
    cases v with
    | notANumber => cases hv'
    | infinity s' => cases hv'
    | zero s' =>
      have hparts : (add .binary32 (.zero s) (.zero s')).isNaN = false ∧
          Canonical (add .binary32 (.zero s) (.zero s')) ∧
          units (add .binary32 (.zero s) (.zero s')) = 0 := by
        cases s <;> cases s' <;> exact ⟨rfl, trivial, rfl⟩
      have hround := rounds_ofParts hparts.2.1 hparts.1
      rwa [hparts.2.2] at hround
    | finite s' m' e' hm' => exact rounds_ofParts hv rfl
  | finite s m e hm =>
    cases v with
    | notANumber => cases hv'
    | infinity s' => cases hv'
    | zero s' =>
      have hzero : units (.finite s m e hm) + units (.zero s') = units (.finite s m e hm) :=
        Int.add_zero _
      rw [hzero]
      exact rounds_ofParts hu rfl
    | finite s' m' e' hm' =>
      obtain ⟨-, hlow, -⟩ := hu
      obtain ⟨-, hlow', -⟩ := hv
      let low := min e e'
      have hround := rounds_normalize
        (s.apply (m <<< (e - low).toNat : Nat) + s'.apply (m' <<< (e' - low).toNat : Nat))
        (e := low) (by omega)
      have hfine : scaled (m <<< (e - low).toNat) low = scaled m e :=
        scaled_finer m (by omega) (by omega)
      have hfine' : scaled (m' <<< (e' - low).toNat) low = scaled m' e' :=
        scaled_finer m' (by omega) (by omega)
      rw [Int.add_mul, ← apply_scaled, ← apply_scaled, hfine, hfine'] at hround
      exact hround

variable {x y : Float32}

theorem rounds_add (hx : x.isFinite = true) (hy : y.isFinite = true) :
    Rounds (value x + value y) (x + y) :=
  rounds_add_parts (canonical_parts x) (canonical_parts y) hx hy

theorem sub_eq (x y : Float32) : x - y = x + -y := by
  show ofParts (sub .binary32 (parts x) (parts y)) = ofParts (add .binary32 (parts x) (parts (-y)))
  rw [sub_eq_add, parts_neg]

theorem isFinite_neg (x : Float32) : (-x).isFinite = x.isFinite := by
  rw [isFinite_eq, isFinite_eq, parts_neg]
  cases parts x <;> rfl

theorem rounds_sub (hx : x.isFinite = true) (hy : y.isFinite = true) :
    Rounds (value x - value y) (x - y) := by
  have hround := rounds_add hx ((isFinite_neg y).trans hy)
  rwa [value_neg, ← Int.sub_eq_add_neg, ← sub_eq] at hround

/-- The least number above zero. -/
def least : Float32 := ofParts (.finite .positive 1 (-149) Nat.one_pos)

theorem Rounds.lt_zero_iff {i : Int} {z : Float32} (h : Rounds i z) : z < 0 ↔ i < 0 := by
  have hzero : (0 : Float32).isNaN = false := rfl
  have hleast : (-least).isNaN = false ∧ value (-least) = -1 := ⟨by rfl, by rfl⟩
  rw [lt_iff_value h.isNaN hzero, value_zero]
  constructor
  · intro hlt
    by_contra hge
    have := h.ge hzero (Int.not_lt.mp hge)
    rw [value_zero] at this
    omega
  · intro hlt
    have := h.le hleast.1 (by omega)
    omega

theorem sub_lt_zero_of_not_finite {u v : UnpackedFloat}
    (h : ¬ (u.isFinite = true ∧ v.isFinite = true)) :
    Canonical (sub .binary32 u v) ∧
      ((sub .binary32 u v).compare (.zero .positive) = some .lt ↔ u.compare v = some .lt) := by
  cases u with
  | notANumber => exact ⟨trivial, Iff.rfl⟩
  | infinity s =>
    cases v with
    | notANumber => exact ⟨trivial, by cases s <;> exact Iff.rfl⟩
    | infinity s' => cases s <;> cases s' <;> exact ⟨trivial, by decide⟩
    | zero s' => cases s <;> exact ⟨trivial, Iff.rfl⟩
    | finite s' m' e' hm' => cases s <;> exact ⟨trivial, Iff.rfl⟩
  | zero s =>
    cases v with
    | notANumber => exact ⟨trivial, Iff.rfl⟩
    | infinity s' => cases s' <;> exact ⟨trivial, Iff.rfl⟩
    | zero s' => exact absurd ⟨rfl, rfl⟩ h
    | finite s' m' e' hm' => exact absurd ⟨rfl, rfl⟩ h
  | finite s m e hm =>
    cases v with
    | notANumber => exact ⟨trivial, by cases s <;> exact Iff.rfl⟩
    | infinity s' => cases s <;> cases s' <;> exact ⟨trivial, Iff.rfl⟩
    | zero s' => exact absurd ⟨rfl, rfl⟩ h
    | finite s' m' e' hm' => exact absurd ⟨rfl, rfl⟩ h

/-- A difference has the sign of the exact difference, also when it underflows or overflows, and
for infinities and NaN. -/
theorem sub_lt_zero_iff (x y : Float32) : x - y < 0 ↔ x < y := by
  by_cases hfinite : x.isFinite = true ∧ y.isFinite = true
  · obtain ⟨hx, hy⟩ := hfinite
    rw [(rounds_sub hx hy).lt_zero_iff, lt_iff_value (isNaN_of_isFinite hx) (isNaN_of_isFinite hy)]
    omega
  · obtain ⟨hcanonical, hcompare⟩ :=
      sub_lt_zero_of_not_finite (u := parts x) (v := parts y) hfinite
    have hparts : parts (x - y) = sub .binary32 (parts x) (parts y) := parts_ofParts hcanonical
    rw [lt_iff, lt_iff, hparts, parts_zero]
    exact hcompare

/-- The number 1 in units of the least positive number. -/
def one : Nat := 2 ^ 149

theorem one_pos : 0 < one := Nat.two_pow_pos 149

theorem isNaN_of_value_ne (h : value x ≠ 0) : x.isNaN = false := by
  rw [value] at h
  rw [isNaN_eq]
  cases hx : parts x with
  | notANumber =>
    rw [hx] at h
    exact absurd rfl h
  | _ => rfl

theorem value_le_beyond (x : Float32) : value x ≤ beyond := by
  have hbeyond := beyond_pos
  have hcanonical := canonical_parts x
  rw [value]
  cases hx : parts x with
  | notANumber => exact Int.natCast_nonneg _
  | infinity s => cases s <;> simp only [units, Sign.apply] <;> omega
  | zero s => exact Int.natCast_nonneg _
  | finite s m e hm =>
    rw [hx] at hcanonical
    have := hcanonical.lt_beyond
    cases s <;> simp only [units, Sign.apply] <;> omega

/-- An exact result that is not below the number that would follow the greatest one overflows. -/
theorem rounds_infinity {i : Int} {z : Float32} (hi : beyond ≤ i)
    (hz : parts z = .infinity .positive) : Rounds i z := by
  have hvalue : value z = beyond := by
    rw [value, hz]
    rfl
  refine ⟨by rw [isNaN_eq, hz]; rfl, fun {y} _ h => ?_, fun {y} _ _ => ?_⟩
  · omega
  · rw [hvalue]
    exact value_le_beyond y

theorem parts_of_nonneg (hnan : x.isNaN = false) (hx : 0 ≤ value x) :
    parts x = .infinity .positive ∨ x.isFinite = true := by
  have hbeyond := beyond_pos
  rw [isNaN_eq] at hnan
  rw [isFinite_eq]
  rw [value] at hx
  cases hparts : parts x with
  | notANumber =>
    rw [hparts] at hnan
    cases hnan
  | infinity s =>
    cases s with
    | positive => exact Or.inl rfl
    | negative =>
      rw [hparts] at hx
      simp only [units, Sign.apply] at hx
      omega
  | _ => exact Or.inr rfl

theorem value_of_infinite (hx : parts x = .infinity .positive) : value x = beyond := by
  rw [value, hx]
  rfl

theorem add_infinity {u : UnpackedFloat} (hu : u = .infinity .positive ∨ u.isFinite = true) :
    add .binary32 u (.infinity .positive) = .infinity .positive ∧
      add .binary32 (.infinity .positive) u = .infinity .positive := by
  cases u with
  | notANumber => simp [Float.Model.UnpackedFloat.isFinite] at hu
  | infinity s =>
    cases s with
    | positive => exact ⟨rfl, rfl⟩
    | negative => simp [Float.Model.UnpackedFloat.isFinite] at hu
  | _ => exact ⟨rfl, rfl⟩

/-- A sum of numbers that are not below zero, infinite or not. -/
theorem rounds_add_of_nonneg (hx : x.isNaN = false) (hy : y.isNaN = false) (hx0 : 0 ≤ value x)
    (hy0 : 0 ≤ value y) : Rounds (value x + value y) (x + y) := by
  have hsum : x + y = ofParts (add .binary32 (parts x) (parts y)) := rfl
  have hinfinite : parts (ofParts (.infinity .positive)) = .infinity .positive :=
    parts_ofParts trivial
  obtain hxi | hxf := parts_of_nonneg hx hx0
  · have hvalue := value_of_infinite hxi
    refine rounds_infinity (by omega) ?_
    rw [hsum, hxi, (add_infinity (parts_of_nonneg hy hy0)).2, hinfinite]
  · obtain hyi | hyf := parts_of_nonneg hy hy0
    · have hvalue := value_of_infinite hyi
      refine rounds_infinity (by omega) ?_
      rw [hsum, hyi, (add_infinity (u := parts x) (Or.inr hxf)).1, hinfinite]
    · exact rounds_add hxf hyf

/-! ## Products -/

/-- A number that is at least 1 has an exponent far above the least one. -/
theorem parts_of_one_le (h : (one : Int) ≤ value x) :
    parts x = .infinity .positive ∨
      ∃ m e hm, parts x = .finite .positive m e hm ∧ 2 ^ 23 ≤ m ∧ -23 ≤ e := by
  have hone := one_pos
  have hcanonical := canonical_parts x
  rw [value] at h
  cases hx : parts x with
  | notANumber =>
    rw [hx, units] at h
    omega
  | zero s =>
    rw [hx, units] at h
    omega
  | infinity s =>
    cases s with
    | positive => exact Or.inl rfl
    | negative =>
      rw [hx] at h
      simp only [units, Sign.apply] at h
      omega
  | finite s m e hm =>
    rw [hx] at h hcanonical
    cases s with
    | negative =>
      simp only [units, Sign.apply] at h
      omega
    | positive =>
      obtain ⟨hbits, hlow, hhigh, hnormal⟩ := hcanonical
      have hle : one ≤ scaled m e := Int.ofNat_le.mp h
      have hexponent : 149 < 24 + (e + 149).toNat :=
        (Nat.pow_lt_pow_iff_right (by omega)).mp (hle.trans_lt (scaled_lt hbits e))
      exact Or.inr ⟨m, e, hm, rfl, by omega, by omega⟩

theorem le_target_of_le (hm : 2 ^ 23 ≤ m) (e : Int) : e ≤ target m e := by
  have hlog : 23 ≤ m.log2 := (Nat.le_log2 (by omega)).mpr hm
  rw [target_eq]
  omega

theorem scaled_mul (m m' : Nat) {e e' : Int} (he : -149 ≤ e) (he' : -149 ≤ e')
    (hsum : -149 ≤ e + e') :
    scaled m e * scaled m' e' = scaled (m * m') (e + e') * one := by
  have hsplit : (e + e' + 149).toNat + 149 = (e + 149).toNat + (e' + 149).toNat := by omega
  rw [scaled, scaled, scaled, one, Nat.mul_assoc (m * m'), ← Nat.pow_add, hsplit, Nat.pow_add]
  exact Nat.mul_mul_mul_comm m _ m' _

/-- A product of numbers that are at least 1, whose exact result is `i`. -/
theorem rounds_mul {i : Int} (hx : (one : Int) ≤ value x) (hy : (one : Int) ≤ value y)
    (hi : value x * value y = i * one) : Rounds i (x * y) := by
  have hone : (0 : Int) < one := Int.natCast_pos.mpr one_pos
  have hbeyond : (0 : Int) ≤ beyond := Int.natCast_nonneg _
  have hproduct : x * y = ofParts (mul .binary32 (parts x) (parts y)) := rfl
  obtain hxi | ⟨m, e, hm, hxf, hnormal, hlow⟩ := parts_of_one_le hx
  · have hle : beyond * (one : Int) ≤ i * one := by
      rw [← hi, value_of_infinite hxi]
      exact Int.mul_le_mul_of_nonneg_left hy hbeyond
    refine rounds_infinity (Int.le_of_mul_le_mul_right hle hone) ?_
    rw [hproduct, hxi]
    obtain hyi | ⟨m', e', hm', hyf, -⟩ := parts_of_one_le hy
    · rw [hyi]
      exact parts_ofParts trivial
    · rw [hyf]
      exact parts_ofParts trivial
  · obtain hyi | ⟨m', e', hm', hyf, hnormal', hlow'⟩ := parts_of_one_le hy
    · have hle : beyond * (one : Int) ≤ i * one := by
        rw [← hi, value_of_infinite hyi, Int.mul_comm]
        exact Int.mul_le_mul_of_nonneg_right hx hbeyond
      refine rounds_infinity (Int.le_of_mul_le_mul_right hle hone) ?_
      rw [hproduct, hxf, hyi]
      exact parts_ofParts trivial
    · have hexact : i = scaled (m * m') (e + e') := by
        refine Int.eq_of_mul_eq_mul_right hone.ne' ?_
        rw [← hi, value, value, hxf, hyf]
        exact Int.ofNat_inj.mpr (scaled_mul m m' (by omega) (by omega) (by omega))
      have htarget : e + e' ≤ target (m * m') (e + e') :=
        le_target_of_le (hnormal.trans (Nat.le_mul_of_pos_right m hm')) _
      rw [hproduct, hxf, hyf, hexact]
      exact rounds_roundWithAccuracy .positive (Nat.mul_pos hm hm') htarget (by omega)

/-! ## Whole numbers -/

theorem Rounds.congr {i : Int} {z z' : Float32} (h : Rounds i z) (hnan : z'.isNaN = false)
    (heq : value z' = value z) : Rounds i z' :=
  ⟨hnan, fun hy hi => heq ▸ h.le hy hi, fun hy hi => heq ▸ h.ge hy hi⟩

theorem parts_one :
    parts (Float32.ofBits 0x3F800000) = .finite .positive (2 ^ 23) (-23) (by decide) :=
  rfl

theorem value_one : value (Float32.ofBits 0x3F800000) = one := by
  rw [value, parts_one]
  rfl

theorem Rounds.mul_one {i : Int} {z : Float32} (h : Rounds i z) (hz : (one : Int) ≤ value z) :
    Rounds i (z * Float32.ofBits 0x3F800000) := by
  have hproduct : Rounds (value z) (z * Float32.ofBits 0x3F800000) :=
    rounds_mul hz value_one.ge (by rw [value_one])
  exact h.congr hproduct.isNaN (hproduct.value_eq h.isNaN rfl)

theorem scaled_zero (n : Nat) : scaled n 0 = n * one := rfl

/-- A number with the power zero of ten is a product with one. -/
theorem rounds_ofScientific {n : Nat} (hn : 0 < n) :
    Rounds (n * one : Nat) (ofParts (ofScientific .binary32 n 0)) := by
  have hlimit : (2 : Int) ^ Format.binary32.exponentBits = 256 := rfl
  have hbits : Format.binary32.mantissaBits = 24 := rfl
  have hpos : 0 < n <<< 24 := by
    rw [Nat.shiftLeft_eq]
    exact Nat.mul_pos hn (Nat.two_pow_pos 24)
  have hnormal : 2 ^ 23 ≤ n <<< 24 := by
    rw [Nat.shiftLeft_eq]
    omega
  have hscaled : scaled (n <<< 24) (-24) = n * one :=
    (scaled_shiftLeft n (e := 0) (n := 24) (by decide)).trans (scaled_zero n)
  have hround := rounds_roundWithAccuracy .positive hpos (le_target_of_le hnormal (-24)) (by decide)
  rw [hscaled] at hround
  rw [ofScientific, dif_neg hn.ne', if_neg (by omega), if_neg (by omega), if_pos (by omega),
    mul_finite, hbits, Int.toNat_zero, Nat.pow_zero, Nat.mul_one, Int.add_zero]
  exact hround

/-- Small numbers are converted by a product with one, large ones from their scientific form. -/
theorem rounds_ofNat (n : Nat) : Rounds (n * one : Nat) (Float32.ofNat n) := by
  show Rounds (n * one : Nat) (Float32.ofScientific n false 0)
  rw [Float32.ofScientific]
  split
  next hsmall =>
    have hword : n.toUInt64.toNat = n := by
      rw [Nat.toUInt64, UInt64.toNat_ofNat']
      omega
    have hround : Rounds (n * one : Nat) n.toUInt64.toFloat32 := by
      show Rounds (n * one : Nat)
        (ofParts (normalize .binary32 (n.toUInt64.toNat : Nat) 0 .positive))
      rw [hword]
      exact rounds_normalize (e := 0) n (by decide)
    show Rounds _ (n.toUInt64.toFloat32 * Float32.ofBits 0x3F800000)
    rcases Nat.eq_zero_or_pos n with rfl | hpos
    · have hzero : (Nat.toUInt64 0).toFloat32 * Float32.ofBits 0x3F800000 =
          (Nat.toUInt64 0).toFloat32 := rfl
      rwa [hzero]
    · have hle : value (Float32.ofBits 0x3F800000) ≤ (n * one : Nat) := by
        rw [value_one]
        exact Int.ofNat_le.mpr (Nat.le_mul_of_pos_left one hpos)
      have hone := hround.ge rfl hle
      rw [value_one] at hone
      exact hround.mul_one hone
  next hlarge => exact rounds_ofScientific (by omega)

/-- A number that takes more bits than a mantissa has is a multiple of a power of two. -/
theorem two_pow_dvd_value {k : Nat} (h : (2 ^ (24 + k) : Nat) ≤ value x) :
    ((2 ^ (k + 1) : Nat) : Int) ∣ value x := by
  have hpos : (0 : Int) < (2 ^ (24 + k) : Nat) := Int.natCast_pos.mpr (Nat.two_pow_pos _)
  obtain ⟨b, f, ⟨hbits, -, -⟩, hvalue, -⟩ :=
    exists_shaped (isNaN_of_value_ne (x := x) (by omega)) (by omega)
  rw [hvalue] at h ⊢
  have hexponent : 24 + k < 24 + (f + 149).toNat :=
    (Nat.pow_lt_pow_iff_right (by omega)).mp ((Int.ofNat_le.mp h).trans_lt (scaled_lt hbits f))
  exact Int.natCast_dvd_natCast.mpr
    ((Nat.pow_dvd_pow 2 (by omega)).trans (Nat.dvd_mul_left _ b))

/-- Whole numbers of up to 24 bits are numbers of the format. -/
theorem exists_whole {j : Nat} (h : j ≤ 2 ^ 24) :
    ∃ y : Float32, y.isNaN = false ∧ value y = (j * one : Nat) := by
  have hmade : ∀ {b f}, Shaped b f → f ≤ 104 → scaled b f = j * one →
      ∃ y : Float32, y.isNaN = false ∧ value y = (j * one : Nat) := by
    intro b f hshaped hf hscaled
    have hlt : scaled b f < beyond := scaled_lt_scaled hshaped shaped_beyond (by omega)
    obtain ⟨hnan, hvalue⟩ := ofParts_made .positive hshaped
    rw [min_eq_left hlt.le, hscaled] at hvalue
    exact ⟨_, hnan, hvalue⟩
  rcases Nat.eq_zero_or_pos j with rfl | hpos
  · exact ⟨0, rfl, by rw [Nat.zero_mul, value_zero]; rfl⟩
  obtain hlt | rfl := Nat.lt_or_eq_of_le h
  · let n := 23 - j.log2
    have hlog : j.log2 < 24 := (Nat.log2_lt hpos.ne').mpr hlt
    have hlow : 2 ^ 23 ≤ j <<< n := by
      rw [Nat.shiftLeft_eq, show 23 = j.log2 + n by omega, Nat.pow_add]
      exact Nat.mul_le_mul_right _ (Nat.log2_self_le hpos.ne')
    have hhigh : j <<< n < 2 ^ 24 := by
      rw [Nat.shiftLeft_eq, show 24 = j.log2 + 1 + n by omega, Nat.pow_add]
      exact Nat.mul_lt_mul_of_pos_right Nat.lt_log2_self (Nat.two_pow_pos n)
    exact hmade (f := 0 - n) ⟨hhigh, by omega, Or.inl hlow⟩ (by omega)
      ((scaled_shiftLeft j (by omega)).trans (scaled_zero j))
  · have hscaled : scaled (2 ^ 23) 1 = 2 ^ 24 * one :=
      (scaled_double (2 ^ 23) (e := 0) (by decide)).symm
    exact hmade ⟨by decide, by decide, Or.inl le_rfl⟩ (by decide) hscaled

theorem Rounds.le_whole {i : Int} {z : Float32} (h : Rounds i z) {j : Nat} (hj : j ≤ 2 ^ 24)
    (hi : i ≤ (j * one : Nat)) : value z ≤ (j * one : Nat) := by
  obtain ⟨y, hy, hvalue⟩ := exists_whole hj
  exact hvalue ▸ h.le hy (hvalue ▸ hi)

theorem Rounds.whole_le {i : Int} {z : Float32} (h : Rounds i z) {j : Nat} (hj : j ≤ 2 ^ 24)
    (hi : (j * one : Nat) ≤ i) : (j * one : Nat) ≤ value z := by
  obtain ⟨y, hy, hvalue⟩ := exists_whole hj
  exact hvalue ▸ h.ge hy (hvalue ▸ hi)

theorem value_two : value 2 = (2 * one : Nat) := by
  rw [value, parts_two]
  rfl

end FlowchartSlides.Single
