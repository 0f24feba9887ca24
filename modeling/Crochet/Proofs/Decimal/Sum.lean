import Crochet.Proofs.Decimal.Quotient

/-!
# Sums as doubles

Numbers of moderate size stay doubles of full precision when they are added (`exists_add`), and so
do whole numbers of 64 bits when they are converted (`exists_toFloat`).  Nothing is said here about
which doubles they become, only that they are positive and finite.
-/

namespace Crochet.Decimal

open Float.Model Float.Model.UnpackedFloat

/-! ## Rounding -/

/-- A whole number with zeros put behind it, so that it has 53 bits at least, is rounded to 53. -/
theorem exists_round_of_log2 {m zeros spare : ℕ} {e : ℤ} (hm : 0 < m)
    (hbits : m.log2 + zeros = 52 + spare) (hmin : -1074 ≤ e + spare) :
    ∃ q, IsNormal (e + spare) (e + spare + 1)
      (roundWithAccuracy .binary64 .positive (m * 2 ^ zeros) e .exact) q := by
  have hlow : 2 ^ (52 + spare) ≤ m * 2 ^ zeros := hbits ▸ two_pow_le_mul_two_pow hm zeros
  have hhigh : m * 2 ^ zeros < 2 ^ (53 + spare) := by
    rw [Nat.add_right_comm 52 1, ← hbits]
    exact mul_two_pow_lt m zeros
  obtain ⟨r, -, normal⟩ := exists_roundWithAccuracy (represents_exact _) hlow hhigh hmin
  exact ⟨_, normal⟩

/-- A whole number is moved to 53 bits, and rounded if it has more. -/
theorem exists_round {m : ℕ} {e : ℤ} (hm : 0 < m) (hmin : -1074 ≤ e + m.log2 - 52) :
    ∃ q, IsNormal (e + m.log2 - 52) (e + m.log2 - 51)
      (UnpackedFloat.round .binary64 .positive m e) q := by
  -- One of the two is zero: the bits that are missing, and those that are too many.
  obtain ⟨missing, spare, hbits, hshift⟩ : ∃ missing spare : ℕ,
      m.log2 + missing = 52 + spare ∧ missing = 52 - m.log2 := ⟨52 - m.log2, m.log2 - 52, by omega⟩
  have htarget : Format.binary64.targetExponent (totalExponent m e) = e + m.log2 - 52 := by
    show max ((m.log2 : ℤ) + 1 + e - 53) (-1074) = e + m.log2 - 52
    omega
  have hmissing : (e - (e + m.log2 - 52)).toNat = missing := by omega
  have hround : UnpackedFloat.round .binary64 .positive m e =
      roundWithAccuracy .binary64 .positive (m * 2 ^ missing) (e - missing) .exact := by
    simp only [UnpackedFloat.round, htarget, decreaseExponent, hmissing, Nat.shiftLeft_eq]
  obtain ⟨q, normal⟩ := exists_round_of_log2 (e := e - missing) hm hbits (by omega)
  rw [hround]
  exact ⟨q, normal.mono (by omega) (by omega)⟩

/-! ## Sums -/

section

variable {u : UnpackedFloat} {q : ℚ} {low high : ℤ}

theorem IsNormal.zero_add (normal : IsNormal low high u q) :
    UnpackedFloat.add .binary64 (.zero .positive) u = u := by
  obtain ⟨m, e, hm, rfl, -⟩ := normal
  rfl

theorem IsNormal.add_zero (normal : IsNormal low high u q) :
    UnpackedFloat.add .binary64 u (.zero .positive) = u := by
  obtain ⟨m, e, hm, rfl, -⟩ := normal
  rfl

end

/-- How many bits a sum has whose terms have 53, and zeros behind them. -/
theorem log2_add_bounds {m₁ m₂ : ℕ} (k₁ k₂ : ℕ) (hlow : 2 ^ 52 ≤ m₁) (hhigh₁ : m₁ < 2 ^ 53)
    (hhigh₂ : m₂ < 2 ^ 53) :
    52 ≤ (m₁ * 2 ^ k₁ + m₂ * 2 ^ k₂).log2 ∧
      (m₁ * 2 ^ k₁ + m₂ * 2 ^ k₂).log2 < 54 + max k₁ k₂ := by
  have hfirst : 2 ^ 52 ≤ m₁ * 2 ^ k₁ := hlow.trans (Nat.le_mul_of_pos_right m₁ (by positivity))
  have hpos : m₁ * 2 ^ k₁ + m₂ * 2 ^ k₂ ≠ 0 := by omega
  refine ⟨(Nat.le_log2 hpos).2 (hfirst.trans (Nat.le_add_right _ _)), (Nat.log2_lt hpos).2 ?_⟩
  have hpow₁ : 2 ^ k₁ ≤ 2 ^ max k₁ k₂ := Nat.pow_le_pow_right two_pos (le_max_left ..)
  have hpow₂ : 2 ^ k₂ ≤ 2 ^ max k₁ k₂ := Nat.pow_le_pow_right two_pos (le_max_right ..)
  calc m₁ * 2 ^ k₁ + m₂ * 2 ^ k₂
      < 2 ^ 53 * 2 ^ max k₁ k₂ + 2 ^ 53 * 2 ^ max k₁ k₂ :=
        Nat.add_lt_add (Nat.mul_lt_mul_of_lt_of_le hhigh₁ hpow₁ (by positivity))
          (Nat.mul_lt_mul_of_lt_of_le hhigh₂ hpow₂ (by positivity))
    _ = 2 ^ (54 + max k₁ k₂) := by ring

/-- **A sum of numbers of moderate size is a number of full precision.** -/
theorem exists_add {u v : UnpackedFloat} {a b : ℚ} (hu : IsNormal (-1074) 900 u a)
    (hv : IsNormal (-1074) 900 v b) :
    ∃ q, IsNormal (-1074) 971 (UnpackedFloat.add .binary64 u v) q := by
  obtain ⟨m₁, e₁, hm₁, rfl, hlow₁, hhigh₁, hmin₁, hmax₁, -⟩ := hu
  obtain ⟨m₂, e₂, hm₂, rfl, -, hhigh₂, hmin₂, hmax₂, -⟩ := hv
  -- Both terms are brought to the smaller one of their exponents.
  obtain ⟨e, he⟩ : ∃ e, e = min e₁ e₂ := ⟨_, rfl⟩
  obtain ⟨k₁, hk₁⟩ : ∃ k, k = (e₁ - e).toNat := ⟨_, rfl⟩
  obtain ⟨k₂, hk₂⟩ : ∃ k, k = (e₂ - e).toNat := ⟨_, rfl⟩
  have hsum : UnpackedFloat.add .binary64 (.finite .positive m₁ e₁ hm₁)
      (.finite .positive m₂ e₂ hm₂) =
        UnpackedFloat.round .binary64 .positive (m₁ * 2 ^ k₁ + m₂ * 2 ^ k₂) e := by
    show UnpackedFloat.normalize .binary64
      (((m₁ <<< (e₁ - min e₁ e₂).toNat : ℕ) : ℤ) + ((m₂ <<< (e₂ - min e₁ e₂).toNat : ℕ) : ℤ))
      (min e₁ e₂) .positive = _
    rw [← he, ← hk₁, ← hk₂, Nat.shiftLeft_eq, Nat.shiftLeft_eq, ← Nat.cast_add,
      UnpackedFloat.normalize, Int.compare_eq_gt.2 (by positivity)]
    rfl
  obtain ⟨hlog, hlog'⟩ := log2_add_bounds k₁ k₂ hlow₁ hhigh₁ hhigh₂
  obtain ⟨q, normal⟩ := exists_round (m := m₁ * 2 ^ k₁ + m₂ * 2 ^ k₂) (e := e) (by positivity)
    (by omega)
  rw [hsum]
  exact ⟨q, normal.mono (by omega) (by omega)⟩

/-! ## Differences -/

theorem unpacked_sub_self {u : UnpackedFloat} (h : u.isFinite = true) :
    UnpackedFloat.sub .binary64 u u = .zero .positive := by
  cases u with
  | notANumber => cases h
  | infinity sign => cases h
  | zero sign => cases sign <;> rfl
  | finite sign m e hm =>
    dsimp only [UnpackedFloat.sub]
    rw [Int.sub_self]
    rfl

/-- A finite double less itself is zero, with a positive sign. -/
theorem sub_self_of_isFinite {x : Float} (h : x.isFinite = true) : x - x = 0.0 := by
  have hsub : x - x = .ofModel
      (.pack (UnpackedFloat.sub .binary64 x.toModel.unpack x.toModel.unpack)) := rfl
  rw [hsub, unpacked_sub_self h]
  decide

/-! ## Conversions -/

/-- A whole number of 64 bits is a double, or rounded to one. -/
theorem exists_toFloat {n : ℕ} (hpos : 0 < n) (hlt : n < 2 ^ 64) :
    ∃ q, IsNormal (-64) 64 n.toFloat.toModel.unpack q := by
  by_cases hsmall : n < 2 ^ 53
  · exact ⟨n, isNormal_toFloat hpos hsmall⟩
  -- The conversion multiplies by the power of ten zero, after making room for 53 bits.
  have hproduct : n.toFloat.toModel =
      .pack (roundWithAccuracy .binary64 .positive (n * 2 ^ 53) (-53) .exact) := by
    show (Float.ofScientific n false 0).toModel = _
    rw [Float.ofScientific, dif_neg (fun h => hsmall h.1)]
    show Float.Model.pack (UnpackedFloat.ofScientific .binary64 n 0) = _
    have hrange : ¬(0 : ℤ) < -(2 ^ 11 + (n.log2 : ℤ)) := by omega
    rw [UnpackedFloat.ofScientific, dif_neg hpos.ne', if_neg (by decide), if_neg hrange,
      if_pos le_rfl]
    show Float.Model.pack
      (roundWithAccuracy .binary64 .positive (n <<< 53 * 1) (-53) .exact) = _
    rw [Nat.shiftLeft_eq, Nat.mul_one]
  have hlog : n.log2 < 64 := (Nat.log2_lt hpos.ne').2 hlt
  have hbits : n.log2 + 53 = 52 + (n.log2 + 1) := by omega
  obtain ⟨q, normal⟩ := exists_round_of_log2 (e := -53) hpos hbits (by omega)
  rw [hproduct, (normal.mono (by omega) (by omega)).unpack_pack]
  exact ⟨_, normal.mono (by omega) (by omega)⟩

/-- A quotient below one is a double of moderate size. -/
theorem exists_toFloat_div {n d : ℕ} (hpos : 0 < n) (hlt : n < d) (hd : d < 2 ^ 53) :
    ∃ q, IsNormal (-1074) 900 (n.toFloat / d.toFloat).toModel.unpack q := by
  obtain ⟨q, normal, hoff⟩ := exists_div (isNormal_toFloat hpos (hlt.trans hd))
    (isNormal_toFloat (hpos.trans hlt) hd) (by exact_mod_cast hlt)
  have hdiv : (n.toFloat / d.toFloat).toModel.unpack =
      UnpackedFloat.div .binary64 n.toFloat.toModel.unpack d.toFloat.toModel.unpack :=
    normal.unpack_pack
  rw [hdiv]
  obtain ⟨m, e, hm, hu, hlow, hhigh, hmin, hmax, rfl⟩ := normal
  refine ⟨_, m, e, hm, hu, hlow, hhigh, hmin, ?_, rfl⟩
  -- With a larger exponent it would be far above one.
  by_contra! hlarge
  have hquotient : (n : ℚ) / d < 1 :=
    (div_lt_one (by exact_mod_cast hpos.trans hlt)).2 (by exact_mod_cast hlt)
  have hfar : (2 : ℚ) ≤ m * 2 ^ e := by
    calc (2 : ℚ) = 2 * 1 := by norm_num
      _ ≤ m * 2 ^ e := by
        gcongr
        · exact_mod_cast (show 2 ≤ m by omega)
        · exact one_le_zpow₀ one_le_two (by omega)
  have hnear := (abs_le.1 hoff).2
  have htiny : (1 : ℚ) / 2 ^ 54 ≤ 1 := by norm_num
  linarith

end Crochet.Decimal
