import Crochet.Fabric.Work
import Crochet.Proofs.Clock
import Crochet.View

/-!
# A view is its body's run

Whatever is done to a view, its body has been run for some number of steps of the clock.  How often
the screen is drawn does not come into it: the number is one for each single step asked for, and
the whole steps in the time that passed from one pause to the next (`ticksDue`).

* `body_after`: the body has been run for as many steps as the calls have taken.
* `takenBy_eq`: the calls have taken as many steps as are due.
* `start_body_after`: the two together, from the start of a view.
-/

namespace Crochet

namespace Body

theorem run_add (b : Body) (dt : Float) (count more : Nat) :
    b.run dt (count + more) = (b.run dt count).run dt more := by
  induction count generalizing b with
  | zero => rw [Nat.zero_add]; rfl
  | succ count ih =>
    rw [Nat.succ_add]
    exact ih (b.tick dt)

theorem ticks_tick (b : Body) {dt : Float} (hdt : isStep dt = true) :
    (b.tick dt).ticks = b.ticks + 1 := by
  rw [tick, if_pos hdt]

/-- A body counts the steps of time by which it is moved. -/
theorem ticks_run (b : Body) {dt : Float} (hdt : isStep dt = true) (count : Nat) :
    (b.run dt count).ticks = b.ticks + count := by
  induction count generalizing b with
  | zero => rfl
  | succ count ih => rw [run, ih, ticks_tick b hdt, Nat.add_right_comm, Nat.add_assoc]

end Body

namespace View

/-! ## Calls -/

/-- What one can do to a view. -/
inductive Call where
  | advance (elapsed : Nat)
  | step
  | pause
  | run
  | toggle
  | render (overlays : Overlays)

/-- Whether a call asks for a single step. -/
def Call.isStep : Call → Bool
  | step => true
  | _ => false

/-- The view after a call.  Drawing a frame changes nothing. -/
def act (v : View) : Call → View
  | .advance elapsed => (v.advance elapsed).2
  | .step => v.step
  | .pause => v.pause
  | .run => v.run
  | .toggle => v.toggle
  | .render _ => v

/-- The view after some calls. -/
def after (v : View) (calls : List Call) : View := calls.foldl act v

/-- The steps that a call takes, by the answer it gives. -/
def taken (v : View) : Call → Nat
  | .advance elapsed => (v.advance elapsed).1
  | .step => 1
  | _ => 0

/-- The steps that some calls take. -/
def takenBy (v : View) : List Call → Nat
  | [] => 0
  | call :: rest => v.taken call + (v.act call).takenBy rest

/-! ## Steps that are due -/

/-- The times that pass while a view is running, parted where it is paused.  A pause parts them
even if the view is paused already; running on does not. -/
def stretches (running : Bool) : List Call → List (List Nat)
  | [] => [[]]
  | .advance elapsed :: rest =>
    if running then (stretches true rest).modifyHead (elapsed :: ·) else stretches false rest
  | .step :: rest => stretches running rest
  | .pause :: rest => [] :: stretches false rest
  | .run :: rest => stretches true rest
  | .toggle :: rest => if running then [] :: stretches false rest else stretches true rest
  | .render _ :: rest => stretches running rest

/-- The steps that are due after some calls: those asked for, and in every stretch the whole steps
in its times. -/
def ticksDue (step : Nat) (calls : List Call) : Nat :=
  calls.countP Call.isStep + ((stretches true calls).map (Clock.stepsIn step)).sum

/-! ## The body -/

variable {v : View}

theorem advance_of_running (hrunning : v.running = true) (elapsed : Nat) :
    v.advance elapsed =
      ((v.clock.advance elapsed).1, { v with
        clock := (v.clock.advance elapsed).2
        body := v.body.run v.clock.stepSeconds (v.clock.advance elapsed).1 }) := by
  rw [advance, if_pos hrunning]
  rfl

theorem advance_of_resting (hresting : v.running = false) (elapsed : Nat) :
    v.advance elapsed = (0, v) := by
  rw [advance, if_neg (by simp [hresting])]

/-- No call changes the fabric or the length of a step. -/
theorem setup_act (v : View) (call : Call) :
    (v.act call).fabric = v.fabric ∧ (v.act call).clock.step = v.clock.step := by
  cases call with
  | advance elapsed => rw [act, advance]; split <;> exact ⟨rfl, rfl⟩
  | toggle => rw [act, toggle]; split <;> exact ⟨rfl, rfl⟩
  | step | pause | run | render _ => exact ⟨rfl, rfl⟩

theorem setup_after (v : View) (calls : List Call) :
    (v.after calls).fabric = v.fabric ∧ (v.after calls).clock.step = v.clock.step := by
  induction calls generalizing v with
  | nil => exact ⟨rfl, rfl⟩
  | cons call rest ih =>
    obtain ⟨hfabric, hstep⟩ := setup_act v call
    exact ⟨(ih (v.act call)).1.trans hfabric, (ih (v.act call)).2.trans hstep⟩

/-- A call runs the body for the steps that it takes. -/
theorem body_act (v : View) (call : Call) :
    (v.act call).body = v.body.run v.clock.stepSeconds (v.taken call) := by
  cases call with
  | advance elapsed => rw [act, taken, advance]; split <;> rfl
  | toggle => rw [act, toggle]; split <;> rfl
  | step | pause | run | render _ => rfl

/-- **Calls run the body for the steps that they take.** -/
theorem body_after (v : View) (calls : List Call) :
    (v.after calls).body = v.body.run v.clock.stepSeconds (v.takenBy calls) := by
  induction calls generalizing v with
  | nil => rfl
  | cons call rest ih =>
    rw [takenBy, Body.run_add, ← body_act, ← Clock.stepSeconds_congr (setup_act v call).2]
    exact ih (v.act call)

theorem takenBy_concat (v : View) (calls : List Call) (call : Call) :
    v.takenBy (calls ++ [call]) = v.takenBy calls + (v.after calls).taken call := by
  induction calls generalizing v with
  | nil => exact (Nat.zero_add _).symm
  | cons first rest ih =>
    rw [List.cons_append, takenBy, takenBy, ih, Nat.add_assoc]
    rfl

/-! ## Counting steps -/

/-- There is always a stretch that is still going on. -/
theorem stretches_ne_nil (running : Bool) (calls : List Call) : stretches running calls ≠ [] := by
  induction calls generalizing running with
  | nil => simp [stretches]
  | cons call rest ih =>
    cases call with
    | advance elapsed => cases running <;> simp [stretches, ih]
    | toggle => cases running <;> simp [stretches, ih]
    | step | pause | run | render _ => simp [stretches, ih]

/-- The steps in some stretches, if a clock has time carried over into the first of them. -/
def stepsCarried (c : Clock) : List (List Nat) → Nat
  | [] => 0
  | times :: more =>
    (c.leftover + (times.map (min · (2 * c.step))).sum) / c.step +
      (more.map (Clock.stepsIn c.step)).sum

theorem stepsCarried_zero (step : Nat) (parts : List (List Nat)) :
    stepsCarried ⟨step, 0⟩ parts = (parts.map (Clock.stepsIn step)).sum := by
  cases parts with
  | nil => rfl
  | cons times more => simp [stepsCarried, Clock.stepsIn]

/-- What is carried over is less than a step, and lost at a pause. -/
theorem stepsCarried_nil_cons {c : Clock} (ready : c.Ready) (more : List (List Nat)) :
    stepsCarried c ([] :: more) = stepsCarried c.reset more := by
  show _ = stepsCarried ⟨c.step, 0⟩ more
  rw [stepsCarried_zero]
  simp [stepsCarried, Nat.div_eq_of_lt ready]

/-- Time that passes at the start of a stretch is handed out by the clock, or carried over. -/
theorem stepsCarried_advance {c : Clock} (ready : c.Ready) (elapsed : Nat)
    (parts : List (List Nat)) (hparts : parts ≠ []) :
    (c.advance elapsed).1 + stepsCarried (c.advance elapsed).2 parts =
      stepsCarried c (parts.modifyHead (elapsed :: ·)) := by
  obtain ⟨times, more, rfl⟩ := List.exists_cons_of_ne_nil hparts
  have hadd := Clock.steps_add ready elapsed (times.map (min · (2 * c.step))).sum
  rw [List.modifyHead_cons, stepsCarried, stepsCarried, List.map_cons, List.sum_cons, ← hadd,
    ← Nat.add_assoc]
  rfl

/-- **Calls take the steps that are due.** -/
theorem takenBy_eq (ready : v.clock.Ready) (calls : List Call) :
    v.takenBy calls =
      calls.countP Call.isStep + stepsCarried v.clock (stretches v.running calls) := by
  induction calls generalizing v with
  | nil => simp [takenBy, stretches, stepsCarried, Nat.div_eq_of_lt ready]
  | cons call rest ih =>
    have hpause : v.pause.takenBy rest =
        rest.countP Call.isStep + stepsCarried v.clock ([] :: stretches false rest) := by
      rw [stepsCarried_nil_cons ready]
      exact ih ready.reset
    have hrun : v.run.takenBy rest =
        rest.countP Call.isStep + stepsCarried v.clock (stretches true rest) := ih ready
    rw [takenBy]
    cases call with
    | advance elapsed =>
      cases hrunning : v.running with
      | false =>
        have hrest : v.takenBy rest =
            rest.countP Call.isStep + stepsCarried v.clock (stretches false rest) :=
          hrunning ▸ ih ready
        rw [taken, act, advance_of_resting hrunning]
        exact (Nat.zero_add _).trans hrest
      | true =>
        have hrest : (v.advance elapsed).2.takenBy rest = rest.countP Call.isStep +
            stepsCarried (v.clock.advance elapsed).2 (stretches true rest) := by
          rw [advance_of_running hrunning]
          exact hrunning ▸ ih (ready.advance elapsed)
        have hcarried :=
          stepsCarried_advance ready elapsed _ (stretches_ne_nil true rest)
        rw [taken, act, hrest, Nat.add_left_comm, advance_of_running hrunning]
        exact congrArg _ hcarried
    | step =>
      rw [List.countP_cons_of_pos rfl, Nat.add_right_comm, Nat.add_comm]
      exact congrArg (· + 1) (ih ready)
    | pause => exact (Nat.zero_add _).trans hpause
    | run => exact (Nat.zero_add _).trans hrun
    | toggle =>
      rw [act, toggle]
      cases v.running with
      | false => exact (Nat.zero_add _).trans hrun
      | true => exact (Nat.zero_add _).trans hpause
    | render _ => exact (Nat.zero_add _).trans (ih ready)

theorem takenBy_start (body : Body) (fabric : Fabric) (step : Nat) (calls : List Call) :
    takenBy ⟨fabric, body, .ofStep step, true⟩ calls = ticksDue (Clock.ofStep step).step calls := by
  rw [takenBy_eq (Clock.ready_ofStep step), ticksDue]
  exact congrArg _ (stepsCarried_zero _ _)

/-! ## From the start -/

/-- **A view shows what a straight run of the same body comes to.**  The run is as long as the steps
that are due, whatever the order of the calls and however the time is divided between them.  Passing
time is answered with the number of steps that it takes, and the body counts as many ticks, unless a
step is so long that its seconds do not fit 64 bits. -/
theorem start_body_after (g : Fabric) (anchors : List Anchor) (settings : Settings) :
    match Body.start g anchors settings with
    | .error fault => start g anchors settings = .error fault
    | .ok s =>
      ∃ v, start g anchors settings = .ok v ∧ v.clock = .ofSeconds settings.timeStep ∧
        ∀ calls,
          (v.after calls).body = s.run v.clock.stepSeconds (ticksDue v.clock.step calls) ∧
          (v.after calls).fabric = g ∧
          ∀ elapsed,
            match (v.after calls).advance elapsed with
            | (steps, w) =>
              ticksDue v.clock.step (calls ++ [.advance elapsed]) =
                ticksDue v.clock.step calls + steps ∧
              w.body = (v.after calls).body.run v.clock.stepSeconds steps ∧
              (v.clock.step < 2 ^ 64 * Clock.second →
                w.body.ticks = (v.after calls).body.ticks + steps) ∧
              ((v.after calls).running = false → steps = 0) := by
  cases hstart : Body.start g anchors settings with
  | error fault => simp only [start, hstart]
  | ok s =>
    refine ⟨⟨g, s, .ofSeconds settings.timeStep, true⟩, by simp only [start, hstart], rfl,
      fun calls => ?_⟩
    generalize hv : (⟨g, s, .ofSeconds settings.timeStep, true⟩ : View) = v
    have hdue (calls : List Call) : v.takenBy calls = ticksDue v.clock.step calls := by
      rw [← hv]
      exact takenBy_start s g _ calls
    have hpos : 0 < v.clock.step := by
      rw [← hv]
      exact Clock.step_pos_ofStep _
    have hmoved (elapsed : Nat) : ((v.after calls).advance elapsed).2.body =
        (v.after calls).body.run v.clock.stepSeconds ((v.after calls).advance elapsed).1 := by
      rw [← Clock.stepSeconds_congr (setup_after v calls).2]
      exact body_act (v.after calls) (.advance elapsed)
    refine ⟨?body, ?fabric, fun elapsed => ⟨?due, hmoved elapsed, fun hlt => ?counted, ?resting⟩⟩
    case body => rw [body_after, hdue, ← hv]
    case fabric => rw [(setup_after v calls).1, ← hv]
    case due =>
      rw [← hdue, ← hdue, takenBy_concat]
      rfl
    case counted =>
      have hstep := Clock.isStep_stepSeconds hpos hlt
      exact (congrArg Body.ticks (hmoved elapsed)).trans (Body.ticks_run _ hstep _)
    case resting => exact fun hresting => congrArg Prod.fst (advance_of_resting hresting elapsed)

/-- Twenty milliseconds in two pieces make one step of a sixtieth of a second, and a single step is
one more.  What was left of the time is lost in the pause, and five seconds count as two steps. -/
theorem start_body_after_ring :
    ∃ (s : Body) (v : View), Body.start Fabric.empty.workLoop [] {} = .ok s ∧
      start Fabric.empty.workLoop [] {} = .ok v ∧
      (v.after [.advance 10000000, .advance 10000000, .toggle, .step, .pause, .run,
        .advance 5000000000]).body = s.run v.clock.stepSeconds 4 ∧
      ((v.after [.advance 10000000, .advance 10000000]).advance 14000000).2.body.ticks =
        (v.after [.advance 10000000, .advance 10000000]).body.ticks + 1 := by
  have hok : (Body.start Fabric.empty.workLoop [] {}).isOk = true := by decide +kernel
  have hview := start_body_after Fabric.empty.workLoop [] {}
  cases hstart : Body.start Fabric.empty.workLoop [] {} with
  | error fault =>
    rw [hstart] at hok
    cases hok
  | ok s =>
    rw [hstart] at hview
    obtain ⟨v, hv, hclock, hcalls⟩ := hview
    have hstep : v.clock.step = 16666667 := by
      rw [hclock]
      decide +kernel
    rw [hstep] at hcalls
    obtain ⟨hdue, -, hcounted, -⟩ :=
      (hcalls [.advance 10000000, .advance 10000000]).2.2 14000000
    refine ⟨s, v, rfl, hv, (hcalls _).1, (hcounted (by decide)).trans (congrArg _ ?_)⟩
    exact Nat.add_left_cancel (hdue.symm.trans rfl)

end View

end Crochet
