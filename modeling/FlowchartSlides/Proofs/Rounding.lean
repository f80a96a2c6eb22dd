import FlowchartSlides.Proofs.Singles

/-!
# Rounding does not leave a power of two behind

The exact result of an operation is a mantissa with an exponent and two bits for
what lies below the mantissa. `AtMost` bounds such a mantissa, and a shift to the
right keeps the bound in the coarser unit. As a power of two is itself a number of
the format, rounding a value of at most `2 ^ k` gives one of at most `2 ^ k`
(`within_roundWithAccuracy`).
-/
namespace FlowchartSlides.Single

open Float.Model (Format UnpackedFloat totalExponent)
open Float.Model.UnpackedFloat

/-- The value of an extended mantissa is at most `bound`. -/
def AtMost (bound : Nat) (m : ExtendedMantissa) : Prop :=
  m.mantissa < bound ∨ m.mantissa = bound ∧ m.roundBit = false ∧ m.stickyBit = false

theorem AtMost.le {bound : Nat} {m : ExtendedMantissa} (h : AtMost bound m) :
    m.mantissa ≤ bound := by
  obtain h | ⟨h, -, -⟩ := h <;> omega

theorem atMost_exact {bound n : Nat} (h : n ≤ bound) :
    AtMost bound (.ofMantissaAndAccuracy n .exact) := by
  obtain h | h := Nat.lt_or_eq_of_le h
  · exact Or.inl h
  · exact Or.inr ⟨h, rfl, rfl⟩

theorem atMost_of_lt {bound n : Nat} (h : n < bound) (a : Accuracy) :
    AtMost bound (.ofMantissaAndAccuracy n a) := by
  rcases a with _ | _ | _ | _ <;> exact Or.inl h

theorem AtMost.shiftRightOne {bound : Nat} {m : ExtendedMantissa} (h : AtMost (2 * bound) m) :
    AtMost bound m.shiftRightOne := by
  obtain h | ⟨h, hround, hsticky⟩ := h
  · refine Or.inl ?_
    show m.mantissa / 2 < bound
    omega
  · refine Or.inr ⟨?_, ?_, ?_⟩
    · show m.mantissa / 2 = bound
      omega
    · show (m.mantissa % 2 != 0) = false
      rw [bne_eq_false_iff_eq]
      omega
    · show (m.roundBit || m.stickyBit) = false
      rw [hround, hsticky]
      rfl

theorem AtMost.shiftRight {bound : Nat} (n : Nat) {m : ExtendedMantissa}
    (h : AtMost (bound * 2 ^ n) m) : AtMost bound (m >>> n) := by
  show AtMost bound (n.repeat ExtendedMantissa.shiftRightOne m)
  induction n generalizing bound with
  | zero => rwa [Nat.pow_zero, Nat.mul_one] at h
  | succ n ih =>
    refine AtMost.shiftRightOne (ih ?_)
    rwa [Nat.mul_comm 2 bound, Nat.mul_assoc, ← Nat.pow_succ']

theorem AtMost.roundedMantissa_le {bound : Nat} {m : ExtendedMantissa} (h : AtMost bound m) :
    m.roundedMantissa ≤ bound := by
  obtain ⟨n, round, sticky⟩ := m
  obtain h | ⟨h, hround, hsticky⟩ := h
  · have h : n < bound := h
    cases round <;> cases sticky <;>
      simp only [ExtendedMantissa.roundedMantissa, ExtendedMantissa.accuracy,
        Accuracy.roundToNearestEven] <;> omega
  · have hround : round = false := hround
    have hsticky : sticky = false := hsticky
    subst hround hsticky
    exact Nat.le_of_eq h

/-- A mantissa with its exponent makes at most `2 ^ k`. -/
def Fits (k : Int) (m : ExtendedMantissa) (e : Int) : Prop :=
  e ≤ k ∧ AtMost (2 ^ (k - e).toNat) m

theorem targetExponent_eq (m : Nat) (e : Int) :
    Format.binary32.targetExponent (totalExponent m e) = max (m.log2 + 1 + e - 24) (-149) := rfl

theorem log2_le {m n : Nat} (h : m ≤ 2 ^ n) : m.log2 ≤ n := by
  by_cases hm : m = 0
  · subst hm
    exact Nat.zero_le n
  · exact (Nat.pow_le_pow_iff_right (by omega)).mp ((Nat.log2_self_le hm).trans h)

variable {k : Int}

/-- The exponent to which a mantissa of at most `2 ^ k` is shifted. -/
theorem targetExponent_le (hk : -149 ≤ k) (hk' : k ≤ 127) {m : Nat} {e : Int} (he : e ≤ k)
    (hm : m ≤ 2 ^ (k - e).toNat) :
    -149 ≤ Format.binary32.targetExponent (totalExponent m e) ∧
      Format.binary32.targetExponent (totalExponent m e) ≤ max (k - 23) (-149) := by
  have hlog := log2_le hm
  rw [targetExponent_eq]
  omega

theorem mantissa_ofMantissaAndAccuracy (m : Nat) (a : Accuracy) :
    (ExtendedMantissa.ofMantissaAndAccuracy m a).mantissa = m := by
  rcases a with _ | _ | _ | _ <;> rfl

/-- Shifting to the exponent of the format keeps the bound. -/
theorem fits_shift (hk : -149 ≤ k) (hk' : k ≤ 127) {m : Nat} {e : Int} {a : Accuracy}
    (he : e ≤ 104) (h : Fits k (.ofMantissaAndAccuracy m a) e) :
    let shifted := shiftToTargetExponent .binary32 m e a
    Fits k shifted.1 shifted.2 ∧ -149 ≤ shifted.2 ∧ shifted.2 ≤ 104 := by
  intro shifted
  obtain ⟨hek, hm⟩ := h
  have hle : m ≤ 2 ^ (k - e).toNat := mantissa_ofMantissaAndAccuracy m a ▸ hm.le
  obtain ⟨hlow, hhigh⟩ := targetExponent_le hk hk' hek hle
  let n := (Format.binary32.targetExponent (totalExponent m e) - e).toNat
  have hsplit : (k - e).toNat = (k - (e + n)).toNat + n := by omega
  refine ⟨⟨?_, ?_⟩, ?_, ?_⟩
  · show e + n ≤ k
    omega
  · rw [hsplit, Nat.pow_add] at hm
    exact hm.shiftRight n
  · show -149 ≤ e + n
    omega
  · show e + n ≤ 104
    omega

/-- A number of at most `2 ^ k`, without its sign, whose exponent is one of the format. -/
def Within (k : Int) : UnpackedFloat → Prop
  | .zero _ => True
  | .finite _ m e _ => -149 ≤ e ∧ e ≤ 104 ∧ e ≤ k ∧ m ≤ 2 ^ (k - e).toNat
  | _ => False

theorem Within.mono {j : Int} (h : j ≤ k) {u : UnpackedFloat} (hu : Within j u) : Within k u := by
  cases u with
  | finite s m e hm =>
    obtain ⟨hlow, hhigh, hej, hmantissa⟩ := hu
    have hpow : 2 ^ (j - e).toNat ≤ 2 ^ (k - e).toNat := Nat.pow_le_pow_right (by omega) (by omega)
    exact ⟨hlow, hhigh, hej.trans h, hmantissa.trans hpow⟩
  | _ => exact hu

theorem Within.zero_or_finite {u : UnpackedFloat} (hu : Within k u) :
    (∃ s, u = .zero s) ∨ ∃ s m e hm, u = .finite s m e hm := by
  cases u with
  | zero s => exact Or.inl ⟨s, rfl⟩
  | finite s m e hm => exact Or.inr ⟨s, m, e, hm, rfl⟩
  | _ => exact hu.elim

/-- Rounding does not leave a power of two behind. -/
theorem within_roundWithAccuracy (hk : -149 ≤ k) (hk' : k ≤ 127) (s : Sign) {m : Nat} {e : Int}
    {a : Accuracy} (he : e ≤ 104) (h : Fits k (.ofMantissaAndAccuracy m a) e) :
    Within k (roundWithAccuracy .binary32 s m e a) := by
  obtain ⟨hfits, -, he₁⟩ := fits_shift hk hk' he h
  obtain ⟨hfits, hlow, hhigh⟩ :=
    fits_shift hk hk' he₁ ⟨hfits.1, atMost_exact hfits.2.roundedMantissa_le⟩
  simp only [roundWithAccuracy]
  split
  next => trivial
  next => exact ⟨hlow, hhigh, hfits.1, hfits.2.le⟩

/-- A mantissa in a finer unit, with a bound in that unit. -/
theorem shiftLeft_le {m n a b : Nat} (h : m ≤ 2 ^ a) (hab : a + n = b) : m <<< n ≤ 2 ^ b := by
  rw [← hab, Nat.pow_add, Nat.shiftLeft_eq]
  exact Nat.mul_le_mul_right _ h

theorem within_round (hk : -149 ≤ k) (hk' : k ≤ 127) (s : Sign) {m : Nat} {e : Int}
    (he : e ≤ k) (h : m ≤ 2 ^ (k - e).toNat) :
    Within k (Float.Model.UnpackedFloat.round .binary32 s m e) := by
  obtain ⟨hlow, hhigh⟩ := targetExponent_le hk hk' he h
  let n := (e - Format.binary32.targetExponent (totalExponent m e)).toNat
  have hshift : m <<< n ≤ 2 ^ (k - (e - n)).toNat := shiftLeft_le h (by omega)
  have hexponent : e - n ≤ k ∧ e - n ≤ 104 := by omega
  exact within_roundWithAccuracy (e := e - n) hk hk' s hexponent.2
    ⟨hexponent.1, atMost_exact hshift⟩

theorem within_normalize (hk : -149 ≤ k) (hk' : k ≤ 127) (s : Sign) {m : Int} {e : Int}
    (he : e ≤ k) (h : m.natAbs ≤ 2 ^ (k - e).toNat) :
    Within k (Float.Model.UnpackedFloat.normalize .binary32 m e s) := by
  rw [Float.Model.UnpackedFloat.normalize]
  split
  next => exact within_round hk hk' _ he (by omega)
  next => trivial
  next => exact within_round hk hk' _ he (by omega)

end FlowchartSlides.Single
