import Crochet.Relax.Body

/-!
# Reports of a long run

A run can be watched: it reports before the first tick, after every so many ticks, and after the
last one.  Watching changes nothing about the run.
-/

namespace Crochet

/-- How far a run has come. -/
structure Report where
  /-- The number of ticks done. -/
  current : Nat
  /-- The number of ticks to do. -/
  total : Nat
  /-- What is being done. -/
  message : String
  deriving DecidableEq, Repr, Inhabited

namespace Report

/-- The number of ticks between two reports; none counts as one. -/
def spacing (interval : Nat) : Nat := max interval 1

/-- Whether a report is due after a tick. -/
def isDue (interval current total : Nat) : Bool :=
  current == total || current % spacing interval == 0

end Report

namespace Body

/-- The last `remaining` ticks of a run of `total`, with a report after each tick that calls for
one. -/
def tickWatched {m : Type → Type} [Monad m] (tell : Report → m Unit) (interval : Nat) (dt : Float)
    (total : Nat) : Nat → Body → m Body
  | 0, b => pure b
  | remaining + 1, b => do
    let next := b.tick dt
    let current := total - remaining
    if Report.isDue interval current total then tell ⟨current, total, "Relaxing"⟩
    tickWatched tell interval dt total remaining next

/-- A run with reports. -/
def runWatched {m : Type → Type} [Monad m] (tell : Report → m Unit) (interval : Nat) (dt : Float)
    (total : Nat) (b : Body) : m Body := do
  tell ⟨0, total, "Relaxing"⟩
  tickWatched tell interval dt total total b

end Body

end Crochet
