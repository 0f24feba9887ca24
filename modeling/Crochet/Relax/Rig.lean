import Crochet.Relax.Anchor
import Crochet.Relax.Group
import Crochet.Relax.Settings

/-!
# The rig of a fabric

All that stays the same while a fabric is relaxed: a spring for every edge, the nodes next to each
node, the triangles of the surface, the groups of joined nodes and the pins.  `Rig.ofFabric` makes
the rig, and `Rig.seeds` places the stitches on the helix from which the relaxation starts.
-/

namespace Crochet

/-- Two nodes drawn to a distance from each other. -/
structure Spring where
  a : Nat
  b : Nat
  /-- The distance at rest; zero for a seam. -/
  rest : Float
  deriving Inhabited, Repr

/-- What stays the same while a fabric is relaxed. -/
structure Rig where
  settings : Settings
  /-- The springs in the order of the edges. -/
  springs : List Spring
  /-- The nodes held to each node by an edge, each once, in the order of the edges. -/
  neighbours : Array (List Nat)
  triangles : List Face
  groups : List Group
  pins : Index Vec3

namespace Rig

/-! ## Springs and neighbours -/

/-- The spring of an edge. -/
def springOf (spacing : Float) (edge : Edge) : Spring :=
  ⟨edge.source, edge.target, edge.distance.toFloat * spacing⟩

/-- A list with a number at its end, unless the number is in it. -/
def addNew (j : Nat) (js : List Nat) : List Nat := if js.contains j then js else js ++ [j]

/-- Notes two nodes as neighbours of each other. -/
def addNeighbours (neighbours : Array (List Nat)) (edge : Edge) : Array (List Nat) :=
  (neighbours.modify edge.source (addNew edge.target)).modify edge.target (addNew edge.source)

/-- The neighbours of each of `count` nodes. -/
def neighboursOf (count : Nat) (edges : Array Edge) : Array (List Nat) :=
  edges.foldl addNeighbours (Array.replicate count [])

/-- The rig of a fabric with pins. -/
def ofFabric (fabric : Fabric) (pins : Index Vec3) (settings : Settings) : Rig where
  settings := settings
  springs := fabric.edges.toList.map (springOf settings.spacing)
  neighbours := neighboursOf fabric.size fabric.edges
  triangles := fabric.faces.toList
  groups := Group.ofJoints fabric.size fabric.joints pins
  pins := pins

/-! ## Seeds -/

/-- A full turn as an angle. -/
def turn : Float := 6.283185307179586

/-- The place of a stitch on a helix that climbs and widens by one spacing with each round. -/
def seed (spacing : Float) (round : Nat) (progress : Float) : Vec3 :=
  let turns := round.toFloat + progress
  let radius := spacing * (1.0 + turns)
  let angle := turn * progress
  ⟨radius * angle.sin, spacing * turns, -radius * angle.cos⟩

/-- The places from which the stitches of a fabric start. -/
def seeds (fabric : Fabric) (settings : Settings) : Array Vec3 :=
  fabric.nodes.map fun node => seed settings.spacing node.round node.progress.toFloat

end Rig

end Crochet
