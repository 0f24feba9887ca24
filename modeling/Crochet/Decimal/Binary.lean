/-!
# The exact value of a double

A finite double is `± m · 2^e` for whole numbers `m` and `e`.  Everything the library prints or
rounds starts from that exact value, so that no digit is decided by floating-point arithmetic.
-/

namespace Crochet.Decimal

/-- What a double stands for. -/
inductive Value where
  /-- No number. -/
  | nan
  /-- An infinity. -/
  | infinite (negative : Bool)
  /-- The number `± mantissa · 2^exponent`; zero keeps its sign. -/
  | finite (negative : Bool) (mantissa : Nat) (exponent : Int)
  deriving Repr, DecidableEq

/-- The value that 64 bits stand for: a sign, eleven bits of biased exponent and 52 bits of
fraction. -/
def Value.ofBits (bits : UInt64) : Value :=
  let n : Nat := bits.toNat
  let negative := decide (Nat.pow 2 63 ≤ n)
  let biased : Nat := n / Nat.pow 2 52 % Nat.pow 2 11
  let fraction : Nat := n % Nat.pow 2 52
  if biased = 2047 then (if fraction = 0 then .infinite negative else .nan)
  else if biased = 0 then .finite negative fraction (-1074)
  else .finite negative (Nat.pow 2 52 + fraction) ((biased : Int) - 1075)

/-- The value of a double. -/
def Value.ofFloat (x : Float) : Value := Value.ofBits x.toBits

/-- Whether the gap to the next smaller double is half the gap to the next larger one, as it is at
a power of two above the smallest ones. -/
def isBoundary (mantissa : Nat) (exponent : Int) : Bool :=
  mantissa == Nat.pow 2 52 && decide (-1074 < exponent)

/-- `m · 2^e` as a quotient of whole numbers. -/
def quotient (m : Nat) (e : Int) : Nat × Nat :=
  if 0 ≤ e then (m * Nat.pow 2 e.toNat, 1) else (m, Nat.pow 2 (-e).toNat)

/-- The whole number nearest to `num / den`; halfway, the even one. -/
def roundDiv (num den : Nat) : Nat :=
  let q := num / den
  let twice := 2 * (num % den)
  if twice < den then q else if den < twice then q + 1 else if q % 2 = 0 then q else q + 1

/-- The whole number nearest to `m · 2^e · 10^places`; halfway, the even one. -/
def roundScaled (m : Nat) (e : Int) (places : Nat) : Nat :=
  let (num, den) := quotient m e
  roundDiv (num * Nat.pow 10 places) den

/-! ## Laws -/

/-- Rounding is off by at most half a unit. -/
theorem roundDiv_bounds (num : Nat) {den : Nat} (hden : 0 < den) :
    2 * num ≤ 2 * (roundDiv num den * den) + den ∧
      2 * (roundDiv num den * den) ≤ 2 * num + den := by
  have h := Nat.div_add_mod num den
  rw [Nat.mul_comm] at h
  have hq : (num / den + 1) * den = num / den * den + den := Nat.succ_mul _ _
  have hm : num % den < den := Nat.mod_lt _ hden
  unfold roundDiv
  dsimp only
  split
  · omega
  · split
    · rw [hq]; omega
    · split
      · omega
      · rw [hq]; omega

/-- A quotient that is whole is not rounded. -/
theorem roundDiv_mul {den : Nat} (q : Nat) (h : 0 < den) : roundDiv (q * den) den = q := by
  simp [roundDiv, Nat.mul_div_cancel q h, h]

end Crochet.Decimal
