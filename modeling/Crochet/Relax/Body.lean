import Crochet.Relax.Rig

/-!
# Bodies

A body is a fabric on its way into shape: where each stitch is and where it was one tick before.
A tick pushes the stitches outward along the normals of the surface, moves them on by what they
moved last, and then draws the springs together, several times over, putting pinned and joined
stitches back into their places after each time.

* `Body.start` sets a fabric up.
* `Body.tick` is one step of time, `Body.run` a number of them.
-/

namespace Crochet

/-- A fabric in motion. -/
structure Body where
  rig : Rig
  /-- Where each stitch is. -/
  positions : Array Vec3
  /-- Where each stitch was a tick before. -/
  previous : Array Vec3
  /-- The outward direction at each stitch. -/
  normals : Array Vec3
  /-- The push of the stuffing on each stitch. -/
  forces : Array Vec3
  /-- The number of ticks gone by. -/
  ticks : Nat

namespace Body

/-- Lengths up to this one count as nothing. -/
def tiny : Float := 1e-9

/-- The point at an index of an array of points. -/
def pointAt (points : Array Vec3) (i : Nat) : Vec3 := points.getD i .zero

/-- The number of stitches. -/
def size (b : Body) : Nat := b.positions.size

/-- The place of a stitch. -/
def position (b : Body) (i : Nat) : Vec3 := pointAt b.positions i

/-! ## Holding places -/

/-- Puts every pinned stitch onto its pin. -/
def holdPins (pins : Index Vec3) (points : Array Vec3) : Array Vec3 :=
  pins.entries.foldl (fun points pin => points.setIfInBounds pin.1 pin.2) points

/-- Puts the members of a group onto its leader. -/
def gather (points : Array Vec3) (group : Group) : Array Vec3 :=
  let target := pointAt points group.leader
  group.members.foldl (fun points member => points.setIfInBounds member target) points

/-- Puts all joined stitches together. -/
def holdJoints (groups : List Group) (points : Array Vec3) : Array Vec3 :=
  groups.foldl gather points

/-- Puts pinned and then joined stitches into their places. -/
def hold (rig : Rig) (points : Array Vec3) : Array Vec3 :=
  holdJoints rig.groups (holdPins rig.pins points)

/-! ## Normals and forces -/

/-- The outward direction of a triangle, if it has an area. -/
def faceNormal? (points : Array Vec3) (face : Face) : Option Vec3 :=
  let corner := pointAt points face.a
  ((pointAt points face.b - corner).cross (pointAt points face.c - corner)).unit? tiny

/-- Adds the outward direction of a triangle to its three corners. -/
def addNormal (points sums : Array Vec3) (face : Face) : Array Vec3 :=
  match faceNormal? points face with
  | none => sums
  | some unit =>
    let add (sums : Array Vec3) (i : Nat) := sums.modify i (· + unit)
    add (add (add sums face.a) face.b) face.c

/-- The outward directions at all points of a surface. -/
def normalsOf (triangles : List Face) (points : Array Vec3) : Array Vec3 :=
  (triangles.foldl (addNormal points) (Array.replicate points.size .zero)).map fun sum =>
    (sum.unit? tiny).getD .zero

/-- The mean of the normals of some stitches, with the strength of the stuffing. -/
def push (stiffness : Float) (normals : Array Vec3) (neighbours : List Nat) : Vec3 :=
  if neighbours.isEmpty then .zero
  else
    (neighbours.foldl (fun sum j => sum + pointAt normals j) Vec3.zero).scale
      (stiffness / neighbours.length.toFloat)

/-- The push of the stuffing on every stitch. -/
def forcesOf (rig : Rig) (normals : Array Vec3) : Array Vec3 :=
  rig.neighbours.map (push rig.settings.stiffness normals)

/-! ## Motion -/

/-- Where each stitch comes to if nothing holds it. -/
def coast (damping dt : Float) (positions previous forces : Array Vec3) : Array Vec3 :=
  positions.mapIdx fun i p =>
    p + (p - pointAt previous i).scale damping + (pointAt forces i).scale (dt * dt)

/-- Moves both ends of a spring by half of what it is too long or too short.  Ends in one place are
parted along the first axis. -/
def relaxSpring (points : Array Vec3) (spring : Spring) : Array Vec3 :=
  let delta := pointAt points spring.b - pointAt points spring.a
  let length := delta.norm
  let correction :=
    if length < tiny then Vec3.scale ⟨1.0, 0.0, 0.0⟩ ((tiny - spring.rest) * 0.5)
    else (delta.div length).scale ((length - spring.rest) * 0.5)
  (points.modify spring.a (· + correction)).modify spring.b (· - correction)

/-- Relaxes all springs in order, and puts held stitches into their places. -/
def pass (rig : Rig) (points : Array Vec3) : Array Vec3 :=
  hold rig (rig.springs.foldl relaxSpring points)

/-- A number of passes. -/
def passes (rig : Rig) : Nat → Array Vec3 → Array Vec3
  | 0, points => points
  | n + 1, points => passes rig n (pass rig points)

/-- The centre of some points; the origin if there are none. -/
def centreOf (points : Array Vec3) : Vec3 :=
  if points.isEmpty then .zero
  else (points.foldl (· + ·) Vec3.zero).div points.size.toFloat

/-- How far a body without pins is moved back over the origin in a tick: never up or down. -/
def drift (dt : Float) (points : Array Vec3) : Vec3 :=
  let centre := centreOf points
  Vec3.scale ⟨centre.x, 0.0, centre.z⟩ (if dt < 1.0 then dt else 1.0)

/-! ## Ticks -/

/-- Whether a step of time is taken at all. -/
def isStep (dt : Float) : Bool := dt.isFinite && 0.0 < dt

/-- One step of time.  Steps that are not finite and positive are passed over. -/
def tick (b : Body) (dt : Float) : Body :=
  if isStep dt then
    let rig := b.rig
    let normals := normalsOf rig.triangles b.positions
    let forces := forcesOf rig normals
    let settled :=
      passes rig rig.settings.passes
        (coast rig.settings.damping dt b.positions b.previous forces)
    let free := rig.settings.recenter && rig.pins.isEmpty
    let shift := drift dt settled
    { rig := rig
      positions := if free then settled.map (· - shift) else settled
      previous :=
        holdPins rig.pins (if free then b.positions.map (· - shift) else b.positions)
      normals := normals
      forces := forces
      ticks := b.ticks + 1 }
  else b

/-- A number of steps of time. -/
def run (b : Body) (dt : Float) : Nat → Body
  | 0 => b
  | n + 1 => (b.tick dt).run dt n

/-! ## Setting up -/

/-- A body at rest on its seeds. -/
def atRest (rig : Rig) (seeds : Array Vec3) : Body :=
  let places := hold rig seeds
  { rig := rig
    positions := places
    previous := places
    normals := normalsOf rig.triangles places
    forces := Array.replicate seeds.size .zero
    ticks := 0 }

/-- Sets a fabric up for relaxation.  Settings are checked first, then the anchors in order. -/
def start (fabric : Fabric) (anchors : List Anchor) (settings : Settings) : Except Fault Body :=
  match settings.check with
  | .error fault => .error fault
  | .ok () =>
    match Anchor.pins fabric.size anchors with
    | .error fault => .error fault
    | .ok pins => .ok (atRest (Rig.ofFabric fabric pins settings) (Rig.seeds fabric settings))

/-- The centre of a body. -/
def centre (b : Body) : Vec3 := centreOf b.positions

end Body

end Crochet
