import Crochet.Decimal.Binary

/-!
# A clock of equal steps

Time passes unevenly, but a body wants steps of one length.  The clock collects the time that has
passed, hands out whole steps, and carries the rest over.  A long wait counts as two steps at most,
so that it does not have to be made up for.  All times are whole nanoseconds.
-/

namespace Crochet

/-- A clock of equal steps. -/
structure Clock where
  /-- The length of a step. -/
  step : Nat
  /-- The time carried over. -/
  leftover : Nat
  deriving DecidableEq, Repr

namespace Clock

/-- The number of nanoseconds in a millisecond. -/
def millisecond : Nat := 1000000

/-- The number of nanoseconds in a second. -/
def second : Nat := 1000000000

/-- A clock with a step of some length, but of a millisecond at least. -/
def ofStep (step : Nat) : Clock := ⟨max step millisecond, 0⟩

/-- A clock for a screen that is drawn sixty times a second. -/
def standard : Clock := ofStep (16 * millisecond)

instance : Inhabited Clock := ⟨standard⟩

/-- The nanoseconds in a number of seconds; none if it is not finite and positive. -/
def nanoseconds (seconds : Float) : Nat :=
  match Decimal.Value.ofFloat seconds with
  | .finite false m e => Decimal.roundScaled m e 9
  | _ => 0

/-- A clock with a step of some seconds. -/
def ofSeconds (seconds : Float) : Clock := ofStep (nanoseconds seconds)

/-- The length of a step in seconds. -/
def stepSeconds (c : Clock) : Float :=
  (c.step / second).toFloat + (c.step % second).toFloat / second.toFloat

/-- Lets time pass; the result is the number of steps to take and the clock after them. -/
def advance (c : Clock) (elapsed : Nat) : Nat × Clock :=
  let time := c.leftover + min elapsed (c.step * 2)
  (time / c.step, { c with leftover := time % c.step })

/-- Forgets the time carried over. -/
def reset (c : Clock) : Clock := { c with leftover := 0 }

end Clock

end Crochet
