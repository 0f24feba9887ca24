import Mathlib.Algebra.Order.Field.Power
import Mathlib.Tactic.FieldSimp
import Mathlib.Tactic.Linarith
import Mathlib.Tactic.NormNum
import Mathlib.Tactic.Positivity
import Mathlib.Tactic.Ring

/-!
# Quotients as doubles

A whole number below `2^53` is a double (`isNormal_toFloat`).  The double that two of them divide
to is within `2^-54` of their quotient if that is less than one (`abs_value_div_sub_le`), so
quotients that lie further apart than `2^-53` are different as doubles (`toFloat_div_ne`).

A significand that is being shortened carries two bits of what was cut off.  `Represents` says
which number it stands for, and that is all that rounding needs to know about it.
-/

namespace Crochet.Decimal

open Float.Model Float.Model.UnpackedFloat

/-! ## Values -/

/-- The number that an unpacked double stands for, and zero if it stands for none. -/
def unpackedValue : UnpackedFloat → ℚ
  | .finite sign m e _ => (sign.apply (m : ℤ) : ℤ) * 2 ^ e
  | _ => 0

/-- The number that a double stands for, and zero if it stands for none. -/
def value (x : Float) : ℚ := unpackedValue x.toModel.unpack

/-- An unpacked double is `q`, a positive number of full precision with an exponent from `low` to
`high`. -/
def IsNormal (low high : ℤ) (u : UnpackedFloat) (q : ℚ) : Prop :=
  ∃ (m : ℕ) (e : ℤ) (hm : 0 < m), u = .finite .positive m e hm ∧ 2 ^ 52 ≤ m ∧ m < 2 ^ 53 ∧
    low ≤ e ∧ e ≤ high ∧ q = m * 2 ^ e

theorem IsNormal.unpackedValue_eq {low high : ℤ} {u : UnpackedFloat} {q : ℚ}
    (normal : IsNormal low high u q) : unpackedValue u = q := by
  obtain ⟨m, e, hm, rfl, -, -, -, -, rfl⟩ := normal
  show (((m : ℤ) : ℤ) : ℚ) * 2 ^ e = m * 2 ^ e
  rw [Int.cast_natCast]

theorem unpackSign_packComponents (spec : Format) (sign : Sign) (e : BitVec spec.exponentBits)
    (m : BitVec spec.mantissaBitsWithoutImplicit) :
    unpackSign (packComponents spec sign e m) = sign.toBitVec := by
  ext i hi
  obtain rfl : i = 0 := by omega
  delta unpackSign
  simp [packComponents, BitVec.getLsbD_append, BitVec.getElem_append]

/-- The leading bit of a significand of full precision is left out when it is packed. -/
theorem toNat_one_append {m : ℕ} (hlow : 2 ^ 52 ≤ m) (hhigh : m < 2 ^ 53) :
    (1#1 ++ BitVec.ofNat 52 m).toNat = m := by
  rw [BitVec.toNat_append, ← Nat.shiftLeft_add_eq_or_of_lt (BitVec.isLt _), BitVec.toNat_ofNat]
  show 1 <<< 52 + m % 2 ^ 52 = m
  rw [Nat.shiftLeft_eq]
  omega

theorem finite_congr {s t : Sign} {m n : ℕ} {e f : ℤ} {hm : 0 < m} {hn : 0 < n} (hs : s = t)
    (hmn : m = n) (hef : e = f) : UnpackedFloat.finite s m e hm = .finite t n f hn := by
  subst hs hmn hef
  rfl

/-- A number of full precision is unpacked as it was packed. -/
theorem IsNormal.unpack_pack {u : UnpackedFloat} {q : ℚ} (normal : IsNormal (-1074) 971 u q) :
    (Float.Model.pack u).unpack = u := by
  obtain ⟨m, e, hm, rfl, hlow, hhigh, hmin, hmax, -⟩ := normal
  have hlog : m.log2 + 1 = Format.binary64.mantissaBits :=
    congrArg (· + 1) ((Nat.log2_eq_iff hm.ne').2 ⟨hlow, hhigh⟩)
  obtain ⟨b, hb⟩ : ∃ b : ℕ, e + 1075 = b := ⟨(e + 1075).toNat, by omega⟩
  have hbits : (BitVec.ofNat 11 b).toNat = b := by
    rw [BitVec.toNat_ofNat, Nat.mod_eq_of_lt (by omega)]
  have hfull : BitVec.ofNat 11 b ≠ -1#11 := by
    intro h
    have hb' : b = 2047 := hbits.symm.trans (congrArg BitVec.toNat h)
    omega
  have hzero : BitVec.ofNat 11 b ≠ 0#11 := by
    intro h
    have hb' : b = 0 := hbits.symm.trans (congrArg BitVec.toNat h)
    omega
  have hpack : UnpackedFloat.pack Format.binary64 (.finite .positive m e hm) =
      packComponents Format.binary64 .positive (BitVec.ofNat 11 b) (BitVec.ofNat 52 m) := by
    have hbias : (e + (Format.binary64.exponentBias : ℤ) + (52 : ℕ)).toNat = b := by
      show (e + 1023 + 52).toNat = b
      omega
    unfold UnpackedFloat.pack
    simp only [hbias]
    rw [if_neg (by omega), if_pos hlog]
  show UnpackedFloat.unpack Format.binary64 (UnpackedFloat.pack Format.binary64 _) = _
  rw [hpack]
  delta UnpackedFloat.unpack
  dsimp only
  rw [unpackExponent_packComponents, if_neg hfull, if_neg hzero]
  refine finite_congr ?_ ?_ ?_
  · rw [unpackSign_packComponents]
    rfl
  · rw [unpackMantissa_packComponents]
    exact toNat_one_append hlow hhigh
  · rw [hbits]
    show (b : ℤ) - (1023 + 52) = e
    omega

/-! ## Rounding -/

/-- The number that a significand stands for which was shortened to a whole number and two bits. -/
def Represents (em : ExtendedMantissa) (x : ℚ) : Prop :=
  match em.roundBit, em.stickyBit with
  | false, false => x = em.mantissa
  | false, true => em.mantissa < x ∧ x < em.mantissa + 1 / 2
  | true, false => x = em.mantissa + 1 / 2
  | true, true => em.mantissa + 1 / 2 < x ∧ x < em.mantissa + 1

@[simp] theorem mantissa_ofMantissaAndAccuracy (m : ℕ) (accuracy : Accuracy) :
    (ExtendedMantissa.ofMantissaAndAccuracy m accuracy).mantissa = m := by
  cases accuracy with
  | exact => rfl
  | inexact order => cases order <;> rfl

theorem represents_exact (m : ℕ) : Represents (.ofMantissaAndAccuracy m .exact) m := rfl

theorem represents_fraction (m : ℕ) {num den : ℕ} (hlt : num < den) :
    Represents (.ofMantissaAndAccuracy m (accuracyOfFraction num den)) (m + num / den) := by
  have hden : (0 : ℚ) < den := by exact_mod_cast Nat.zero_lt_of_lt hlt
  have hone : (num : ℚ) / den < 1 := (div_lt_one hden).2 (by exact_mod_cast hlt)
  unfold accuracyOfFraction
  by_cases hnum : num = 0
  · simp [Represents, ExtendedMantissa.ofMantissaAndAccuracy, hnum]
  · rw [if_neg hnum]
    have hpos : (0 : ℚ) < num / den := by positivity
    cases hcompare : compare (2 * num) den with
    | lt =>
      have hhalf : (num : ℚ) / den < 1 / 2 := by
        have hcross : num * 2 < 1 * den := by
          have := Nat.compare_eq_lt.1 hcompare
          omega
        rw [div_lt_div_iff₀ hden two_pos]
        exact_mod_cast hcross
      simp only [Represents, ExtendedMantissa.ofMantissaAndAccuracy]
      constructor <;> linarith
    | eq =>
      have hhalf : (num : ℚ) / den = 1 / 2 := by
        have hcross : num * 2 = 1 * den := by
          have := Nat.compare_eq_eq.1 hcompare
          omega
        rw [div_eq_div_iff hden.ne' two_ne_zero]
        exact_mod_cast hcross
      simp only [Represents, ExtendedMantissa.ofMantissaAndAccuracy, hhalf]
    | gt =>
      have hhalf : (1 : ℚ) / 2 < num / den := by
        have hcross : 1 * den < num * 2 := by
          have := Nat.compare_eq_gt.1 hcompare
          omega
        rw [div_lt_div_iff₀ two_pos hden]
        exact_mod_cast hcross
      simp only [Represents, ExtendedMantissa.ofMantissaAndAccuracy]
      constructor <;> linarith

namespace Represents

variable {em : ExtendedMantissa} {x : ℚ}

theorem shiftRightOne (h : Represents em x) : Represents em.shiftRightOne (x / 2) := by
  obtain ⟨m, r, s⟩ := em
  obtain ⟨k, rfl | rfl⟩ : ∃ k, m = 2 * k ∨ m = 2 * k + 1 := ⟨m / 2, by omega⟩
  · have hshift : (⟨2 * k, r, s⟩ : ExtendedMantissa).shiftRightOne = ⟨k, false, r || s⟩ := by
      simp [ExtendedMantissa.shiftRightOne]
    rw [hshift]
    cases r <;> cases s <;> simp only [Represents, Nat.cast_mul, Nat.cast_two, Bool.or_self,
      Bool.or_true, Bool.or_false] at h ⊢
    · linarith
    all_goals constructor <;> linarith
  · have hshift : (⟨2 * k + 1, r, s⟩ : ExtendedMantissa).shiftRightOne = ⟨k, true, r || s⟩ := by
      have hhalf : (2 * k + 1) / 2 = k := by omega
      simp [ExtendedMantissa.shiftRightOne, hhalf]
    rw [hshift]
    cases r <;> cases s <;> simp only [Represents, Nat.cast_mul, Nat.cast_add, Nat.cast_one,
      Nat.cast_two, Bool.or_self, Bool.or_true, Bool.or_false] at h ⊢
    · linarith
    all_goals constructor <;> linarith

/-- Shortening keeps the number, in units that double each time. -/
theorem shiftRight (h : Represents em x) (n : ℕ) : Represents (em >>> n) (x / 2 ^ n) := by
  show Represents (n.repeat ExtendedMantissa.shiftRightOne em) _
  induction n with
  | zero => simpa [Nat.repeat] using h
  | succ n ih =>
    rw [Nat.repeat, pow_succ, ← div_div]
    exact ih.shiftRightOne

theorem mantissa_le (h : Represents em x) : (em.mantissa : ℚ) ≤ x ∧ x < em.mantissa + 1 := by
  obtain ⟨m, r, s⟩ := em
  cases r <;> cases s <;> simp only [Represents] at h <;> constructor <;> linarith

/-- **Rounding is off by half a unit at most.** -/
theorem abs_roundedMantissa_sub_le (h : Represents em x) :
    |(em.roundedMantissa : ℚ) - x| ≤ 1 / 2 := by
  obtain ⟨m, r, s⟩ := em
  have hbit : ((m % 2 : ℕ) : ℚ) = 0 ∨ ((m % 2 : ℕ) : ℚ) = 1 := by
    rcases Nat.mod_two_eq_zero_or_one m with h | h <;> simp [h]
  rw [abs_le]
  cases r <;> cases s <;>
    simp only [Represents, ExtendedMantissa.roundedMantissa, ExtendedMantissa.accuracy,
      Accuracy.roundToNearestEven, Nat.cast_add, Nat.cast_one] at h ⊢
  case true.false => rcases hbit with hbit | hbit <;> constructor <;> linarith
  all_goals constructor <;> linarith

theorem roundedMantissa_le (h : Represents em x) {low high : ℕ} (hlow : (low : ℚ) ≤ x)
    (hhigh : x < high) : low ≤ em.roundedMantissa ∧ em.roundedMantissa ≤ high := by
  have hoff := abs_le.1 h.abs_roundedMantissa_sub_le
  constructor
  · have hlt : (low : ℚ) < em.roundedMantissa + 1 := by linarith
    have : low < em.roundedMantissa + 1 := by exact_mod_cast hlt
    omega
  · have hlt : (em.roundedMantissa : ℚ) < high + 1 := by linarith
    have : em.roundedMantissa < high + 1 := by exact_mod_cast hlt
    omega

end Represents

/-- A significand of `53 + k` bits is shortened by `k` bits. -/
theorem shiftToTargetExponent_eq {m k : ℕ} {e : ℤ} (accuracy : Accuracy) (hlow : 2 ^ (52 + k) ≤ m)
    (hhigh : m < 2 ^ (53 + k)) (hmin : -1074 ≤ e + k) :
    shiftToTargetExponent .binary64 m e accuracy =
      (ExtendedMantissa.ofMantissaAndAccuracy m accuracy >>> k, e + k) := by
  have hpos : m ≠ 0 := (Nat.lt_of_lt_of_le (by positivity) hlow).ne'
  have hlog : m.log2 = 52 + k := (Nat.log2_eq_iff hpos).2 ⟨hlow, by rwa [Nat.add_right_comm]⟩
  have htarget : Format.binary64.targetExponent (totalExponent m e) = e + k := by
    show max ((m.log2 : ℤ) + 1 + e - 53) (-1074) = e + k
    omega
  have hshift : (e + (k : ℤ) - e).toNat = k := by omega
  simp only [shiftToTargetExponent, htarget, shiftToExponent, hshift]

/-- What a significand and an exponent come to that need no more rounding. -/
def ofShifted (shifted : ExtendedMantissa × ℤ) : UnpackedFloat :=
  if h : shifted.1.mantissa = 0 then .zero .positive
  else .finite .positive shifted.1.mantissa shifted.2 (Nat.pos_of_ne_zero h)

theorem ofShifted_eq {em : ExtendedMantissa} {m : ℕ} (e : ℤ) (hm : 0 < m) (h : em.mantissa = m) :
    ofShifted (em, e) = .finite .positive m e hm := by
  subst h
  exact dif_neg hm.ne'

/-- A rounded significand has 53 bits, or else one more that is zero and is dropped. -/
theorem isNormal_ofShifted {r : ℕ} {e : ℤ} (hlow : 2 ^ 52 ≤ r) (hhigh : r ≤ 2 ^ 53)
    (hmin : -1074 ≤ e) :
    IsNormal e (e + 1) (ofShifted (shiftToTargetExponent .binary64 r e .exact)) (r * 2 ^ e) := by
  by_cases hcarry : r = 2 ^ 53
  · subst hcarry
    rw [shiftToTargetExponent_eq (k := 1) .exact (by decide) (by decide) (by omega),
      ofShifted_eq (m := 2 ^ 52) _ (by decide) rfl]
    refine ⟨_, _, _, rfl, le_rfl, by decide, by omega, le_rfl, ?_⟩
    rw [Nat.cast_one, zpow_add_one₀ two_ne_zero]
    push_cast
    ring
  · rw [shiftToTargetExponent_eq (k := 0) .exact hlow (by omega) (by omega),
      ofShifted_eq (m := r) _ (by omega) rfl]
    refine ⟨_, _, _, rfl, hlow, by omega, by omega, by omega, ?_⟩
    rw [Nat.cast_zero, add_zero]

/-- What rounding makes of a significand of `53 + k` bits. -/
theorem exists_roundWithAccuracy {m k : ℕ} {e : ℤ} {accuracy : Accuracy} {x : ℚ}
    (h : Represents (.ofMantissaAndAccuracy m accuracy) x) (hlow : 2 ^ (52 + k) ≤ m)
    (hhigh : m < 2 ^ (53 + k)) (hmin : -1074 ≤ e + k) :
    ∃ r : ℕ, |(r : ℚ) - x / 2 ^ k| ≤ 1 / 2 ∧
      IsNormal (e + k) (e + k + 1) (roundWithAccuracy .binary64 .positive m e accuracy)
        (r * 2 ^ (e + k)) := by
  have hx := h.mantissa_le
  rw [mantissa_ofMantissaAndAccuracy] at hx
  have hpow : (0 : ℚ) < 2 ^ k := by positivity
  rw [pow_add] at hlow hhigh
  have hxlow : ((2 ^ 52 : ℕ) : ℚ) ≤ x / 2 ^ k := by
    rw [le_div_iff₀ hpow]
    exact le_trans (by exact_mod_cast hlow) hx.1
  have hxhigh : x / 2 ^ k < ((2 ^ 53 : ℕ) : ℚ) := by
    rw [div_lt_iff₀ hpow]
    exact hx.2.trans_le (by exact_mod_cast hhigh)
  rw [← pow_add] at hlow hhigh
  have hshort := h.shiftRight k
  obtain ⟨hrlow, hrhigh⟩ := hshort.roundedMantissa_le hxlow hxhigh
  refine ⟨_, hshort.abs_roundedMantissa_sub_le, ?_⟩
  rw [roundWithAccuracy, shiftToTargetExponent_eq accuracy hlow hhigh hmin]
  exact isNormal_ofShifted hrlow hrhigh hmin

/-- What needs no rounding is not rounded. -/
theorem isNormal_roundWithAccuracy {m k : ℕ} {e : ℤ} (hlow : 2 ^ 52 ≤ m) (hhigh : m < 2 ^ 53)
    (hmin : -1074 ≤ e + k) :
    IsNormal (e + k) (e + k + 1) (roundWithAccuracy .binary64 .positive (m * 2 ^ k) e .exact)
      (m * 2 ^ (e + k)) := by
  have hpow : 0 < 2 ^ k := by positivity
  obtain ⟨r, hoff, normal⟩ := exists_roundWithAccuracy (represents_exact (m * 2 ^ k))
    (by rw [pow_add]; exact Nat.mul_le_mul_right _ hlow)
    (by rw [pow_add]; exact Nat.mul_lt_mul_of_pos_right hhigh hpow) hmin
  have hwhole : ((m * 2 ^ k : ℕ) : ℚ) / 2 ^ k = m := by
    push_cast
    field_simp
  rw [hwhole, abs_le] at hoff
  have hr : r = m := by
    have h₁ : (r : ℚ) < m + 1 := by linarith
    have h₂ : (m : ℚ) < r + 1 := by linarith
    have h₁' : r < m + 1 := by exact_mod_cast h₁
    have h₂' : m < r + 1 := by exact_mod_cast h₂
    omega
  rwa [hr] at normal

/-! ## Whole numbers -/

theorem IsNormal.mono {low low' high high' : ℤ} {u : UnpackedFloat} {q : ℚ}
    (normal : IsNormal low high u q) (hlow : low' ≤ low) (hhigh : high ≤ high') :
    IsNormal low' high' u q := by
  obtain ⟨m, e, hm, hu, hm₁, hm₂, he₁, he₂, hq⟩ := normal
  exact ⟨m, e, hm, hu, hm₁, hm₂, hlow.trans he₁, he₂.trans hhigh, hq⟩

theorem two_pow_le_mul_two_pow {n : ℕ} (hpos : 0 < n) (k : ℕ) :
    2 ^ (n.log2 + k) ≤ n * 2 ^ k := by
  rw [pow_add]
  exact Nat.mul_le_mul_right _ (Nat.log2_self_le hpos.ne')

theorem mul_two_pow_lt (n k : ℕ) : n * 2 ^ k < 2 ^ (n.log2 + k + 1) := by
  rw [Nat.add_right_comm, pow_add]
  exact Nat.mul_lt_mul_of_pos_right Nat.lt_log2_self (by positivity)

/-- A whole number that fits is unpacked as itself, with its bits moved to the front. -/
theorem isNormal_ofNat {n : ℕ} (hpos : 0 < n) (hlt : n < 2 ^ 53) :
    IsNormal (-52) 1 (UnpackedFloat.ofNat .binary64 n) n := by
  have hlog : n.log2 < 53 := (Nat.log2_lt hpos.ne').2 hlt
  obtain ⟨k, hk⟩ : ∃ k : ℕ, n.log2 + k = 52 := ⟨52 - n.log2, by omega⟩
  have hlow : 2 ^ 52 ≤ n * 2 ^ k := hk ▸ two_pow_le_mul_two_pow hpos k
  have hhigh : n * 2 ^ k < 2 ^ (52 + 1) := hk ▸ mul_two_pow_lt n k
  have htarget : Format.binary64.targetExponent (totalExponent n 0) = -k := by
    show max ((n.log2 : ℤ) + 1 + 0 - 53) (-1074) = -k
    omega
  have hshift : (0 - (-k : ℤ)).toNat = k := by omega
  have hround : UnpackedFloat.ofNat .binary64 n =
      roundWithAccuracy .binary64 .positive (n * 2 ^ k * 2 ^ 0) (0 - (k : ℕ)) .exact := by
    rw [UnpackedFloat.ofNat, UnpackedFloat.ofInt, UnpackedFloat.normalize,
      Int.compare_eq_gt.2 (by omega)]
    simp only [Int.toNat_natCast, UnpackedFloat.round, htarget, decreaseExponent, hshift,
      Nat.shiftLeft_eq, pow_zero, mul_one]
  rw [hround]
  have normal := isNormal_roundWithAccuracy (k := 0) (e := 0 - k) hlow hhigh (by omega)
  have hvalue : ((n * 2 ^ k : ℕ) : ℚ) * 2 ^ ((0 : ℤ) - k + (0 : ℕ)) = n := by
    push_cast
    rw [add_zero, zero_sub, zpow_neg, zpow_natCast]
    field_simp
  rw [hvalue] at normal
  exact normal.mono (by omega) (by omega)

/-- **A whole number below `2^53` is a double.** -/
theorem isNormal_toFloat {n : ℕ} (hpos : 0 < n) (hlt : n < 2 ^ 53) :
    IsNormal (-64) 64 n.toFloat.toModel.unpack n := by
  obtain ⟨m, e, hm, hu, hlow, hhigh, hmin, hmax, hn⟩ := isNormal_ofNat hpos hlt
  have hunpack : n.toUInt64.toFloat.toModel.unpack = .finite .positive m e hm := by
    have hword : n.toUInt64.toNat = n := by
      rw [UInt64.toNat_ofNat', Nat.mod_eq_of_lt (hlt.trans (by decide))]
    show (Float.Model.pack (UnpackedFloat.ofNat .binary64 n.toUInt64.toNat)).unpack = _
    rw [hword, hu]
    exact IsNormal.unpack_pack ⟨m, e, hm, rfl, hlow, hhigh, by omega, by omega, hn⟩
  -- The conversion multiplies by the power of ten zero.
  have hone : (Float.ofBits 0x3FF0000000000000).toModel.unpack =
      .finite .positive (2 ^ 52) (-52) (by decide) := rfl
  have htimes : n.toFloat = n.toUInt64.toFloat * Float.ofBits 0x3FF0000000000000 := by
    show Float.ofScientific n false 0 = _
    rw [Float.ofScientific, dif_pos ⟨hlt, Nat.zero_le 22⟩]
    rfl
  have hproduct : n.toFloat.toModel =
      .pack (roundWithAccuracy .binary64 .positive (m * 2 ^ 52) (e + -52) .exact) := by
    rw [htimes]
    show Float.Model.pack (UnpackedFloat.mul .binary64 n.toUInt64.toFloat.toModel.unpack
      (Float.ofBits 0x3FF0000000000000).toModel.unpack) = _
    rw [hunpack, hone]
    rfl
  have normal := isNormal_roundWithAccuracy (k := 52) (e := e + -52) hlow hhigh (by omega)
  rw [hproduct, (normal.mono (by omega) (by omega)).unpack_pack]
  rw [Nat.cast_ofNat, neg_add_cancel_right, ← hn] at normal
  exact normal.mono (by omega) (by omega)

/-! ## Division -/

/-- A number below one is off by at most half of the last bit that doubles have just below one. -/
theorem exists_round_of_lt_one {m k : ℕ} {e : ℤ} {accuracy : Accuracy} {x : ℚ}
    (h : Represents (.ofMantissaAndAccuracy m accuracy) x) (hlow : 2 ^ (52 + k) ≤ m)
    (hhigh : m < 2 ^ (53 + k)) (hmin : -1074 ≤ e + k) (hone : x * 2 ^ e < 1) :
    ∃ q, IsNormal (-1074) 971 (roundWithAccuracy .binary64 .positive m e accuracy) q ∧
      |q - x * 2 ^ e| ≤ 1 / 2 ^ 54 := by
  obtain ⟨r, hoff, normal⟩ := exists_roundWithAccuracy h hlow hhigh hmin
  -- The leading bit of the number is worth less than one.
  have hunit : e + k ≤ -53 := by
    have hfloor : ((2 ^ (52 + k) : ℕ) : ℚ) ≤ x := by
      have hx := h.mantissa_le.1
      rw [mantissa_ofMantissaAndAccuracy] at hx
      exact le_trans (by exact_mod_cast hlow) hx
    have hsmall : (2 : ℚ) ^ (((52 + k : ℕ) : ℤ) + e) < 2 ^ (0 : ℤ) := by
      calc (2 : ℚ) ^ (((52 + k : ℕ) : ℤ) + e) = ((2 ^ (52 + k) : ℕ) : ℚ) * 2 ^ e := by
            rw [zpow_add₀ two_ne_zero, zpow_natCast, Nat.cast_pow, Nat.cast_ofNat]
        _ ≤ x * 2 ^ e := by gcongr
        _ < 2 ^ (0 : ℤ) := by rwa [zpow_zero]
    have := (zpow_lt_zpow_iff_right₀ one_lt_two).1 hsmall
    omega
  refine ⟨_, normal.mono (by omega) (by omega), ?_⟩
  have hscaled : x * 2 ^ e = x / 2 ^ k * 2 ^ (e + k) := by
    rw [zpow_add₀ two_ne_zero, zpow_natCast]
    field_simp
  calc |(r : ℚ) * 2 ^ (e + k) - x * 2 ^ e|
      = |(r : ℚ) - x / 2 ^ k| * 2 ^ (e + k) := by
        rw [hscaled, ← sub_mul, abs_mul, abs_of_pos (zpow_pos (two_pos : (0 : ℚ) < 2) _)]
    _ ≤ 1 / 2 * 2 ^ (-53 : ℤ) := by
        gcongr
        exact one_le_two
    _ = 1 / 2 ^ 54 := by norm_num

/-- Numbers in the middle of the range are divided as whole numbers, to 53 more bits. -/
theorem div_eq {m₁ m₂ : ℕ} {e₁ e₂ : ℤ} (hm₁ : 0 < m₁) (hm₂ : 0 < m₂)
    (hlog₁ : m₁.log2 = 52) (hlog₂ : m₂.log2 = 52) (hmin : -1021 ≤ e₁ - e₂) :
    UnpackedFloat.div .binary64 (.finite .positive m₁ e₁ hm₁) (.finite .positive m₂ e₂ hm₂) =
      roundWithAccuracy .binary64 .positive (m₁ * 2 ^ 53 / m₂) (e₁ - e₂ - 53)
        (accuracyOfFraction (m₁ * 2 ^ 53 % m₂) m₂) := by
  have htarget : min (e₁ - e₂) (Format.binary64.targetExponent
      (totalExponent m₁ e₁ - totalExponent m₂ e₂)) = e₁ - e₂ - 53 := by
    show min (e₁ - e₂) (max ((m₁.log2 : ℤ) + 1 + e₁ - ((m₂.log2 : ℤ) + 1 + e₂) - 53) (-1074)) = _
    omega
  have hshift : (e₁ - e₂ - (e₁ - e₂ - 53)).toNat = 53 := by omega
  have hcore : divCore .binary64 m₁ e₁ m₂ e₂ = (m₁ * 2 ^ 53 / m₂, e₁ - e₂ - 53,
      accuracyOfFraction (m₁ * 2 ^ 53 % m₂) m₂) := by
    simp only [divCore, htarget, hshift, Nat.shiftLeft_eq]
  show (match divCore .binary64 m₁ e₁ m₂ e₂ with
    | (m, e, accuracy) => roundWithAccuracy .binary64 .positive m e accuracy) = _
  rw [hcore]

/-- A quotient is its whole part and the fraction that is left. -/
theorem cast_div_add_cast_mod_div (n : ℕ) {d : ℕ} (hd : 0 < d) :
    ((n / d : ℕ) : ℚ) + ((n % d : ℕ) : ℚ) / d = n / d := by
  have hd' : (d : ℚ) ≠ 0 := by exact_mod_cast hd.ne'
  have hparts : (d : ℚ) * (n / d : ℕ) + (n % d : ℕ) = n := by exact_mod_cast Nat.div_add_mod n d
  rw [eq_div_iff hd', add_mul, div_mul_cancel₀ _ hd', mul_comm]
  exact hparts

/-- The quotient of two numbers in the middle of the range, if it is less than one. -/
theorem exists_div {u v : UnpackedFloat} {a b : ℚ} (hu : IsNormal (-64) 64 u a)
    (hv : IsNormal (-64) 64 v b) (hlt : a < b) :
    ∃ q, IsNormal (-1074) 971 (UnpackedFloat.div .binary64 u v) q ∧ |q - a / b| ≤ 1 / 2 ^ 54 := by
  obtain ⟨m₁, e₁, hm₁, rfl, hlow₁, hhigh₁, hmin₁, hmax₁, rfl⟩ := hu
  obtain ⟨m₂, e₂, hm₂, rfl, hlow₂, hhigh₂, hmin₂, hmax₂, rfl⟩ := hv
  have hlog₁ : m₁.log2 = 52 := (Nat.log2_eq_iff hm₁.ne').2 ⟨hlow₁, hhigh₁⟩
  have hlog₂ : m₂.log2 = 52 := (Nat.log2_eq_iff hm₂.ne').2 ⟨hlow₂, hhigh₂⟩
  rw [div_eq hm₁ hm₂ hlog₁ hlog₂ (by omega)]
  have hrep := represents_fraction (m₁ * 2 ^ 53 / m₂) (Nat.mod_lt (m₁ * 2 ^ 53) hm₂)
  rw [cast_div_add_cast_mod_div _ hm₂] at hrep
  have hquotient : (m₁ * 2 ^ e₁ / (m₂ * 2 ^ e₂) : ℚ) =
      ((m₁ * 2 ^ 53 : ℕ) : ℚ) / m₂ * 2 ^ (e₁ - e₂ - 53) := by
    have hpow : (2 : ℚ) ^ (53 : ℤ) = 2 ^ 53 := by norm_num
    rw [zpow_sub₀ two_ne_zero, zpow_sub₀ two_ne_zero, hpow, Nat.cast_mul, Nat.cast_pow,
      Nat.cast_ofNat]
    field_simp
  have hone : ((m₁ * 2 ^ 53 : ℕ) : ℚ) / m₂ * 2 ^ (e₁ - e₂ - 53) < 1 := by
    rw [← hquotient, div_lt_one (by positivity)]
    exact hlt
  have hlow : 2 ^ 52 ≤ m₁ * 2 ^ 53 / m₂ := by
    rw [Nat.le_div_iff_mul_le hm₂]
    omega
  have hhigh : m₁ * 2 ^ 53 / m₂ < 2 ^ 54 := by
    rw [Nat.div_lt_iff_lt_mul hm₂]
    omega
  rw [hquotient]
  by_cases hbits : m₁ * 2 ^ 53 / m₂ < 2 ^ 53
  · exact exists_round_of_lt_one (k := 0) hrep hlow hbits (by omega) hone
  · exact exists_round_of_lt_one (k := 1) hrep (by omega) hhigh (by omega) hone

/-- **A quotient below one is off by half a unit in the last place at most.** -/
theorem abs_value_div_sub_le {n d : ℕ} (hlt : n < d) (hd : d < 2 ^ 53) :
    |value (n.toFloat / d.toFloat) - n / d| ≤ 1 / 2 ^ 54 := by
  have hv := isNormal_toFloat (Nat.zero_lt_of_lt hlt) hd
  cases n with
  | zero =>
    obtain ⟨m, e, hm, hu, -⟩ := hv
    have hzero : UnpackedFloat.div .binary64 (.zero .positive) (.finite .positive m e hm) =
      .zero .positive := rfl
    have hdiv : (Nat.toFloat 0 / d.toFloat).toModel.unpack = .zero .positive := by
      show (Float.Model.pack (UnpackedFloat.div .binary64 (.zero .positive)
        d.toFloat.toModel.unpack)).unpack = _
      rw [hu, hzero]
      rfl
    rw [value, hdiv, Nat.cast_zero, zero_div, sub_zero]
    show |(0 : ℚ)| ≤ _
    rw [abs_zero]
    positivity
  | succ n =>
    have hu := isNormal_toFloat (Nat.succ_pos n) (hlt.trans hd)
    obtain ⟨q, normal, hoff⟩ := exists_div hu hv (by exact_mod_cast hlt)
    have hdiv : (Nat.toFloat (n + 1) / d.toFloat).toModel.unpack = UnpackedFloat.div .binary64
        (Nat.toFloat (n + 1)).toModel.unpack d.toFloat.toModel.unpack := normal.unpack_pack
    rwa [value, hdiv, normal.unpackedValue_eq]

/-- **Quotients that are far enough apart are different doubles.** -/
theorem toFloat_div_ne {a b c d : ℕ} (hab : a < b) (hcd : c < d) (hsmall : b * d < 2 ^ 53)
    (hne : a * d ≠ c * b) : a.toFloat / b.toFloat ≠ c.toFloat / d.toFloat := by
  intro heq
  have hb : (0 : ℚ) < b := by exact_mod_cast Nat.zero_lt_of_lt hab
  have hd : (0 : ℚ) < d := by exact_mod_cast Nat.zero_lt_of_lt hcd
  have hb' : b < 2 ^ 53 := lt_of_le_of_lt (Nat.le_mul_of_pos_right b (by omega)) hsmall
  have hd' : d < 2 ^ 53 := lt_of_le_of_lt (Nat.le_mul_of_pos_left d (by omega)) hsmall
  have hfirst := abs_value_div_sub_le hab hb'
  have hsecond := abs_value_div_sub_le hcd hd'
  rw [heq, abs_sub_comm] at hfirst
  have hnear : |(a : ℚ) / b - c / d| ≤ 1 / 2 ^ 53 := by
    have htriangle := abs_sub_le (a / b : ℚ) (value (c.toFloat / d.toFloat)) (c / d)
    have htwice : (1 : ℚ) / 2 ^ 54 + 1 / 2 ^ 54 = 1 / 2 ^ 53 := by norm_num
    linarith
  have hfar : 1 / (b * d : ℚ) ≤ |(a : ℚ) / b - c / d| := by
    have hone : (1 : ℚ) ≤ |(a : ℚ) * d - c * b| := by
      have : (1 : ℤ) ≤ |(a : ℤ) * d - c * b| := by
        refine Int.one_le_abs (sub_ne_zero.2 ?_)
        exact_mod_cast hne
      exact_mod_cast this
    rw [div_sub_div _ _ hb.ne' hd.ne', abs_div, abs_of_pos (mul_pos hb hd), mul_comm (b : ℚ) c]
    gcongr
  have hgap : 1 / (2 : ℚ) ^ 53 < 1 / (b * d) := by
    refine one_div_lt_one_div_of_lt (mul_pos hb hd) ?_
    exact_mod_cast hsmall
  linarith

/-- Numbers whose product is above the bound do divide to the same double. -/
example : Nat.toFloat 94911150 / Nat.toFloat 94911151 =
    Nat.toFloat 94911151 / Nat.toFloat 94911152 := by decide +kernel

end Crochet.Decimal
