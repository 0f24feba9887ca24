import Crochet.Fault
import Crochet.Json.Reader

/-!
# Settings of a relaxation

How a fabric is relaxed: the spacing of its stitches, how much of its motion it keeps, how hard it
is stuffed, and how finely time is cut.  Settings can be written as a JSON record in which every
field may be left out and no other field may occur.
-/

namespace Crochet

/-- The settings of a relaxation. -/
structure Settings where
  /-- The distance between neighbouring stitches; zero stands for one. -/
  gauge : Float := 1.0
  /-- The part of the velocity that is kept from one tick to the next. -/
  damping : Float := 0.9
  /-- The strength of the stuffing. -/
  stiffness : Float := 0.5
  /-- How often the springs are relaxed in a tick. -/
  passes : Nat := 8
  /-- The length of a tick in seconds. -/
  timeStep : Float := 1.0 / 60.0
  /-- Whether a fabric without pins is drawn back over the origin. -/
  recenter : Bool := true
  deriving Inhabited, Repr

namespace Settings

/-- The spacing of the stitches that is used. -/
def spacing (s : Settings) : Float := if s.gauge == 0.0 then 1.0 else s.gauge

/-- Fails at the first setting that is out of its range. -/
def check (s : Settings) : Except Fault Unit :=
  if !s.gauge.isFinite || s.gauge < 0.0 then .error (.outOfRange .spacing s.gauge)
  else if !(0.0 ≤ s.damping && s.damping ≤ 1.0) then .error (.outOfRange .damping s.damping)
  else if !s.stiffness.isFinite then .error (.outOfRange .stiffness s.stiffness)
  else if !s.timeStep.isFinite || s.timeStep ≤ 0.0 then .error (.outOfRange .timeStep s.timeStep)
  else .ok ()

/-! ## Reading -/

/-- How settings are written. -/
def layout : Json.Layout where
  names := ["point_distance", "damping", "stiffness", "iterations", "time_step", "recenter"]
  least := 0
  closed := true

/-- Settings from a JSON value. -/
def ofJson? (json : Json) : Option Settings := do
  let standard : Settings := {}
  match ← layout.fields? json with
  | [gauge, damping, stiffness, passes, timeStep, recenter] =>
    some
      { gauge := ← Json.orElse? Json.float? standard.gauge gauge
        damping := ← Json.orElse? Json.float? standard.damping damping
        stiffness := ← Json.orElse? Json.float? standard.stiffness stiffness
        passes := ← Json.orElse? (Json.natural? (Nat.pow 2 64)) standard.passes passes
        timeStep := ← Json.orElse? Json.float? standard.timeStep timeStep
        recenter := ← Json.orElse? Json.bool? standard.recenter recenter }
  | _ => none

/-- Settings from a text, each of them in its range. -/
def read (text : List Char) : Except Fault Settings :=
  match (Json.read? text).bind ofJson? with
  | none => .error .malformed
  | some settings =>
    match settings.check with
    | .error fault => .error fault
    | .ok () => .ok settings

end Settings

end Crochet
