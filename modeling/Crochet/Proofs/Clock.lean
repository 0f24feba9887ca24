import Crochet.Proofs.Decimal.Sum
import Crochet.Clock
import Crochet.Relax.Body

/-!
# Whole steps

A clock carries over less than a step (`Ready`).  So it does not matter how the time that passes is
divided: what it hands out for one piece after another is what it hands out for all of it
(`steps_add`), but that no piece counts for more than two steps.

In seconds a step is a double that a body can be moved by (`isStep_stepSeconds`), unless it is so
long that its seconds do not fit 64 bits.
-/

namespace Crochet

namespace Clock

/-- Less than a step is carried over. -/
def Ready (c : Clock) : Prop := c.leftover < c.step

/-- The whole steps in some times, each of which counts as two steps at most. -/
def stepsIn (step : Nat) (times : List Nat) : Nat := (times.map (min · (2 * step))).sum / step

variable {c : Clock}

theorem step_pos_ofStep (step : Nat) : 0 < (ofStep step).step :=
  Nat.lt_of_lt_of_le (by decide) (Nat.le_max_right step millisecond)

theorem ready_ofStep (step : Nat) : (ofStep step).Ready := step_pos_ofStep step

theorem Ready.step_pos (ready : c.Ready) : 0 < c.step := Nat.zero_lt_of_lt ready

theorem Ready.advance (ready : c.Ready) (elapsed : Nat) : (c.advance elapsed).2.Ready :=
  Nat.mod_lt _ ready.step_pos

theorem Ready.reset (ready : c.Ready) : c.reset.Ready := ready.step_pos

/-- Whole steps may be taken out before more time comes. -/
theorem div_add_mod_add_div {step : Nat} (hpos : 0 < step) (time later : Nat) :
    time / step + (time % step + later) / step = (time + later) / step := by
  calc time / step + (time % step + later) / step
      = (step * (time / step) + (time % step + later)) / step :=
        (Nat.mul_add_div hpos _ _).symm
    _ = (time + later) / step := by rw [← Nat.add_assoc, Nat.div_add_mod]

/-- **What is carried over and what comes later makes as many steps as all of it at once.** -/
theorem steps_add (ready : c.Ready) (elapsed later : Nat) :
    (c.advance elapsed).1 + ((c.advance elapsed).2.leftover + later) / c.step =
      (c.leftover + (min elapsed (2 * c.step) + later)) / c.step := by
  rw [← Nat.add_assoc, Nat.mul_comm 2]
  exact div_add_mod_add_div ready.step_pos _ later

/-! ## Seconds -/

open Decimal Float.Model

/-- What is carried over does not count for the length of a step. -/
theorem stepSeconds_congr {d : Clock} (h : c.step = d.step) : c.stepSeconds = d.stepSeconds := by
  rw [stepSeconds, stepSeconds, h]

/-- The double that a number of moderate size is packed into moves a body. -/
theorem isStep_of_isNormal {u : UnpackedFloat} {q : ℚ} (normal : IsNormal (-1074) 971 u q)
    {x : Float} (hx : x.toModel = .pack u) : Body.isStep x = true := by
  have hunpack : x.toModel.unpack = u := by rw [hx, normal.unpack_pack]
  obtain ⟨m, e, hm, rfl, -⟩ := normal
  have hfinite : x.isFinite = true := by
    show x.toModel.unpack.isFinite = true
    rw [hunpack]
    rfl
  have hpositive : (0.0 : Float) < x := by
    refine decide_eq_true (?_ : (0.0 : Float).toModel < x.toModel)
    show UnpackedFloat.lt (0.0 : Float).toModel.unpack x.toModel.unpack = true
    rw [hunpack]
    rfl
  rw [Body.isStep, hfinite, decide_eq_true hpositive]
  rfl

/-- **A step of a clock, in seconds, is one that a body can be moved by.** -/
theorem isStep_stepSeconds {c : Clock} (hpos : 0 < c.step) (hlt : c.step < 2 ^ 64 * second) :
    Body.isStep c.stepSeconds = true := by
  have hsum : c.stepSeconds.toModel = .pack (UnpackedFloat.add .binary64
      (c.step / second).toFloat.toModel.unpack
      ((c.step % second).toFloat / second.toFloat).toModel.unpack) := rfl
  have hparts := Nat.div_add_mod c.step second
  have hwhole : c.step / second < 2 ^ 64 := Nat.div_lt_of_lt_mul (by rwa [Nat.mul_comm])
  have hpart : c.step % second < second := Nat.mod_lt _ (by decide)
  cases hseconds : c.step / second with
  | zero =>
    rw [hseconds, Nat.mul_zero, Nat.zero_add] at hparts
    obtain ⟨q, normal⟩ := exists_toFloat_div (by rwa [hparts]) hpart (by decide)
    rw [hseconds] at hsum
    exact isStep_of_isNormal (normal.mono le_rfl (by decide))
      (hsum.trans (congrArg _ normal.zero_add))
  | succ seconds =>
    rw [hseconds] at hsum hwhole
    obtain ⟨a, ha⟩ := exists_toFloat (Nat.succ_pos seconds) hwhole
    cases hrest : c.step % second with
    | zero =>
      have hzero : (Nat.toFloat 0 / second.toFloat).toModel.unpack = .zero .positive := rfl
      rw [hrest, hzero] at hsum
      exact isStep_of_isNormal (ha.mono (by decide) (by decide))
        (hsum.trans (congrArg _ ha.add_zero))
    | succ rest =>
      rw [hrest] at hsum hpart
      obtain ⟨b, hb⟩ := exists_toFloat_div (Nat.succ_pos rest) hpart (by decide)
      obtain ⟨q, normal⟩ := exists_add (ha.mono (by decide) (by decide)) hb
      exact isStep_of_isNormal normal hsum

end Clock

end Crochet
