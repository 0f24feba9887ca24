import Crochet.Proofs.Clock
import Mathlib.Algebra.BigOperators.Group.List.Basic

/-!
# No time is lost or made up

A clock may be told that time has passed, any number of times, and be reset in between.  The steps
that it has handed out since it was last reset, and the time that it carries over, together are the
time that has passed since then, each piece of which counts as two steps at most (`time_kept`).

* `handOut_eq`: taking out one step at a time, as long as there is enough for one more, comes to the
  quotient and the remainder by which `advance` does it at once.
* `run_eq`: the steps and the time carried over are the quotient and the remainder of all the time
  that counts.  Only its sum comes in, so neither the order of the pieces matters nor how they are
  divided, as long as none is cut down.
-/

namespace Crochet

namespace Clock

/-! ## One step at a time -/

/-- Takes steps out of some time as long as it holds one more: the number of steps, added to those
taken before, and the time that is left.  No step without a length is ever taken. -/
def handOut (step time steps : Nat) : Nat × Nat :=
  if 0 < step ∧ step ≤ time then handOut step (time - step) (steps + 1) else (steps, time)
termination_by time

theorem handOut_eq {step : Nat} (hpos : 0 < step) (time steps : Nat) :
    handOut step time steps = (steps + time / step, time % step) := by
  fun_induction handOut step time steps with
  | case1 time steps henough ih =>
    rw [ih, Nat.mod_eq_sub_mod henough.2, Nat.div_eq_sub_div hpos henough.2, Nat.add_assoc,
      Nat.add_comm 1]
  | case2 time steps hshort =>
    have hlt : time < step := Nat.lt_of_not_le fun hle => hshort ⟨hpos, hle⟩
    rw [Nat.div_eq_of_lt hlt, Nat.mod_eq_of_lt hlt, Nat.add_zero]

variable {c : Clock}

/-- A clock hands out what one gets by taking out one step at a time. -/
theorem advance_eq_handOut (hpos : 0 < c.step) (elapsed : Nat) :
    c.advance elapsed =
      match handOut c.step (c.leftover + min elapsed (2 * c.step)) 0 with
      | (steps, rest) => (steps, { c with leftover := rest }) := by
  rw [handOut_eq hpos, Nat.zero_add, Nat.mul_comm]
  rfl

/-- Less than three steps are there to be handed out. -/
theorem Ready.fst_advance_le (ready : c.Ready) (elapsed : Nat) : (c.advance elapsed).1 ≤ 2 := by
  have hlt : c.leftover + min elapsed (c.step * 2) < c.step * 3 := by
    have hleftover : c.leftover < c.step := ready
    omega
  exact Nat.le_of_lt_succ (Nat.div_lt_of_lt_mul hlt)

/-! ## Calls -/

/-- What one can do to a clock. -/
inductive Call where
  | advance (elapsed : Nat)
  | reset

/-- A clock, and the steps that it has handed out since it was last reset, after a call. -/
def record (state : Clock × Nat) : Call → Clock × Nat
  | .advance elapsed =>
    match state.1.advance elapsed with
    | (steps, c) => (c, state.2 + steps)
  | .reset => (state.1.reset, 0)

/-- The clock after some calls, and the steps that it has handed out since it was last reset. -/
def run (c : Clock) (calls : List Call) : Clock × Nat := calls.foldl record (c, 0)

/-- The pieces of time that have passed after a call since the last reset. -/
def note (times : List Nat) : Call → List Nat
  | .advance elapsed => times ++ [elapsed]
  | .reset => []

/-- The pieces of time that have passed since the last reset. -/
def sinceReset (calls : List Call) : List Nat := calls.foldl note []

/-- The time that counts: of no piece more than two steps. -/
def counted (step : Nat) (times : List Nat) : Nat := (times.map (min · (2 * step))).sum

@[simp] theorem counted_nil (step : Nat) : counted step [] = 0 := rfl

@[simp] theorem counted_append (step : Nat) (times more : List Nat) :
    counted step (times ++ more) = counted step times + counted step more := by
  simp [counted]

@[simp] theorem counted_singleton (step elapsed : Nat) :
    counted step [elapsed] = min elapsed (2 * step) := by
  simp [counted]

theorem counted_perm {step : Nat} {times others : List Nat} (perm : times.Perm others) :
    counted step times = counted step others :=
  (perm.map _).sum_eq

/-- Pieces that are not more than two steps together all count in full. -/
theorem counted_of_sum_le {step : Nat} {times : List Nat} (h : times.sum ≤ 2 * step) :
    counted step times = times.sum := by
  have hfull : times.map (min · (2 * step)) = times.map id := by
    refine List.map_congr_left fun elapsed hmem => ?_
    exact min_eq_left ((List.le_sum_of_mem hmem).trans h)
  rw [counted, hfull, List.map_id]

/-! ## Runs -/

/-- What a clock with a step of this length comes to once some time has counted since it was
reset. -/
def settled (step time : Nat) : Clock × Nat := (⟨step, time % step⟩, time / step)

/-- A call adds its time to the time that has counted, or takes all of it away. -/
theorem record_settled {step : Nat} (hpos : 0 < step) (times : List Nat) (call : Call) :
    record (settled step (counted step times)) call =
      settled step (counted step (note times call)) := by
  cases call with
  | advance elapsed =>
    have hcarried := div_add_mod_add_div hpos (counted step times) (min elapsed (2 * step))
    simp only [record, settled, advance, note, counted_append, counted_singleton,
      Nat.mul_comm step 2, hcarried, Nat.mod_add_mod]
  | reset => simp [record, settled, reset, note]

/-- **The steps and the time carried over are the quotient and the remainder of the time that has
counted since the last reset.** -/
theorem run_eq {step : Nat} (hpos : 0 < step) (calls : List Call) :
    run ⟨step, 0⟩ calls = settled step (counted step (sinceReset calls)) := by
  have hfrom : ∀ times, calls.foldl record (settled step (counted step times)) =
      settled step (counted step (calls.foldl note times)) := by
    induction calls with
    | nil => exact fun times => rfl
    | cons call rest ih =>
      intro times
      rw [List.foldl_cons, List.foldl_cons, record_settled hpos, ih]
  have hstart : settled step (counted step []) = (⟨step, 0⟩, 0) := by simp [settled]
  rw [run, ← hstart, hfrom, sinceReset]

/-- **No time is lost or made up.**  A step is as long as it was asked to be, but a millisecond at
least.  After any calls less than a step is carried over, and one more call hands out two steps at
most, those that one gets by taking them out one at a time.  The steps handed out since the last
reset and the time carried over make up the time that has passed since then, each piece of which
counts as two steps at most.  So it does not matter in which order the pieces come, nor whether one
that counts in full is divided. -/
theorem time_kept (step : Nat) (calls : List Call) :
    match run (ofStep step) calls with
    | (c, steps) =>
      c.step = max step 1000000 ∧
      c.leftover < c.step ∧
      (∀ elapsed, (c.advance elapsed).1 ≤ 2 ∧
        c.advance elapsed =
          match handOut c.step (c.leftover + min elapsed (2 * c.step)) 0 with
          | (taken, rest) => (taken, ⟨c.step, rest⟩)) ∧
      steps * c.step + c.leftover =
        ((sinceReset calls).map (min · (2 * c.step))).sum ∧
      (∀ others, (sinceReset calls).Perm (sinceReset others) →
        run (ofStep step) others = (c, steps)) ∧
      ∀ others before parts later, sinceReset calls = before ++ parts.sum :: later →
        parts.sum ≤ 2 * c.step → sinceReset others = before ++ parts ++ later →
        run (ofStep step) others = (c, steps) := by
  have hpos := step_pos_ofStep step
  generalize hlength : (ofStep step).step = length at hpos
  have hrun (calls : List Call) : run (ofStep step) calls =
      settled length (counted length (sinceReset calls)) := by
    rw [← run_eq hpos, ← hlength]
    rfl
  have hsame (others : List Call)
      (h : counted length (sinceReset others) = counted length (sinceReset calls)) :
      run (ofStep step) others = settled length (counted length (sinceReset calls)) := by
    rw [hrun, h]
  have hready : Ready (settled length (counted length (sinceReset calls))).1 := Nat.mod_lt _ hpos
  rw [hrun calls]
  refine ⟨hlength.symm, hready, fun elapsed => ⟨hready.fst_advance_le elapsed, ?loop⟩, ?total,
    fun others perm => ?order, fun others before parts later hcalls hfull hothers => ?parts⟩
  case loop => exact advance_eq_handOut hpos elapsed
  case total => exact Nat.div_add_mod' (counted length (sinceReset calls)) length
  case order => exact hsame others (counted_perm perm).symm
  case parts =>
    refine hsame others ?_
    rw [hothers, hcalls, ← List.singleton_append, List.append_assoc]
    simp only [counted_append, counted_singleton]
    rw [counted_of_sum_le hfull, min_eq_left hfull]

/-- A clock of sixteen milliseconds, reset once.  Ten, forty and nine milliseconds then make three
steps, since the forty count as thirty-two, and three milliseconds are left.  So they do in another
order, and with the ten in two halves. -/
theorem time_kept_sixteen : ∃ c steps,
    run (ofStep 16000000) [.advance 15000000, .reset, .advance 10000000, .advance 40000000,
      .advance 9000000] = (c, steps) ∧
    steps = 3 ∧ c.leftover = 3000000 ∧ (c.advance 29000000).1 ≤ 2 ∧
    run (ofStep 16000000) [.advance 9000000, .advance 40000000, .advance 10000000] = (c, steps) ∧
    run (ofStep 16000000) [.advance 5000000, .advance 5000000, .advance 40000000,
      .advance 9000000] = (c, steps) := by
  obtain ⟨-, -, htwo, -, horder, hparts⟩ := time_kept 16000000
    [.advance 15000000, .reset, .advance 10000000, .advance 40000000, .advance 9000000]
  have hperm : [10000000, 40000000, 9000000].Perm [9000000, 40000000, 10000000] := by decide
  exact ⟨_, _, rfl, by decide, by decide, (htwo _).1,
    horder [.advance 9000000, .advance 40000000, .advance 10000000] hperm,
    hparts [.advance 5000000, .advance 5000000, .advance 40000000, .advance 9000000] []
      [5000000, 5000000] [40000000, 9000000] rfl (by decide) rfl⟩

end Clock

end Crochet
