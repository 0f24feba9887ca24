import Crochet.Clock
import Crochet.Fabric.Basic
import Crochet.Relax.Body

/-!
# Views

A view shows a fabric while it is relaxed.  It runs or rests, turns the time that passes into ticks
while it runs, and can be asked at any time for a frame to draw: points in single precision,
triangles as indices, and overlays for those who want to see more.
-/

namespace Crochet

/-- A fabric, its body and the controls. -/
structure View where
  fabric : Fabric
  body : Body
  clock : Clock
  /-- Whether passing time moves the body. -/
  running : Bool

namespace View

/-- A view of a fabric, running. -/
def start (fabric : Fabric) (anchors : List Anchor) (settings : Settings) : Except Fault View :=
  match Body.start fabric anchors settings with
  | .error fault => .error fault
  | .ok body => .ok ⟨fabric, body, .ofSeconds settings.timeStep, true⟩

/-! ## Controls -/

/-- Lets the body move as time passes. -/
def run (v : View) : View := { v with running := true }

/-- Stops the body; the time carried over is lost. -/
def pause (v : View) : View := { v with running := false, clock := v.clock.reset }

/-- Changes between running and resting. -/
def toggle (v : View) : View := if v.running then v.pause else v.run

/-- One step of time of a given length, running or not. -/
def update (v : View) (dt : Float) : View := { v with body := v.body.tick dt }

/-- One step of the clock, running or not. -/
def step (v : View) : View := v.update v.clock.stepSeconds

/-- Lets nanoseconds pass; the result is the number of ticks taken and the view after them. -/
def advance (v : View) (elapsed : Nat) : Nat × View :=
  if v.running then
    let (steps, clock) := v.clock.advance elapsed
    (steps, { v with clock := clock, body := v.body.run clock.stepSeconds steps })
  else (0, v)

end View

/-! ## Frames -/

/-- What a frame shows besides the surface. -/
structure Overlays where
  outline : Bool := false
  forces : Bool := false
  labels : Bool := false
  /-- The factor by which forces are drawn longer. -/
  forceScale : Float32 := 1.0
  deriving Inhabited, Repr

/-- A text at a stitch. -/
structure Label where
  node : Nat
  position : Vec3.Single
  text : String
  deriving Inhabited, Repr

/-- What is drawn at one moment. -/
structure Frame where
  positions : List Vec3.Single
  normals : List Vec3.Single
  /-- The corners of the triangles, three for each. -/
  indices : List UInt32
  /-- The live stitches in order. -/
  outline? : Option (List Vec3.Single)
  /-- The start and end of every force. -/
  forces? : Option (List (Vec3.Single × Vec3.Single))
  labels? : Option (List Label)
  deriving Inhabited, Repr

/-- The number of triangles in a frame. -/
def Frame.triangleCount (frame : Frame) : Nat := frame.indices.length / 3

namespace View

/-- The number and the kind of a stitch. -/
def labelText (node : Node) : String := toString node.id ++ ":" ++ node.stitch.mnemonic

/-- Some overlay, if it is wanted. -/
def overlay {α : Type} (wanted : Bool) (content : α) : Option α :=
  if wanted then some content else none

/-- The frame at this moment. -/
def frame (v : View) (overlays : Overlays) : Frame :=
  let place (i : Nat) := (v.body.position i).toSingle
  let scale := overlays.forceScale.toFloat
  { positions := v.body.positions.toList.map Vec3.toSingle
    normals := v.body.normals.toList.map Vec3.toSingle
    indices := v.body.rig.triangles.flatMap fun face =>
      [UInt32.ofNat face.a, UInt32.ofNat face.b, UInt32.ofNat face.c]
    outline? := overlay overlays.outline (v.fabric.outline.map place)
    forces? := overlay overlays.forces <|
      (v.body.positions.toList.zip v.body.forces.toList).map fun (p, force) =>
        (p.toSingle, (p + force.scale scale).toSingle)
    labels? := overlay overlays.labels <|
      v.fabric.nodes.toList.map fun node => ⟨node.id, place node.id, labelText node⟩ }

end View

end Crochet
