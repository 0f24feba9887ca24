import Crochet.Pattern

/-!
# Fabric

A fabric is what a pattern has been worked into so far: a node for every stitch that adds yarn,
edges that hold two nodes at a distance, joints that sew two nodes onto one spot, and faces that
fill the surface with triangles.  Nodes are numbered from zero in the order in which they are made.

The *outline* is the queue of live stitches: new stitches join it at the back, and stitches are
worked into from the front.  A loop is a *ring*: it stays at the front however often it is worked
into, until the round that works into it ends.  The *anchor* is the stitch worked into last.
-/

namespace Crochet

/-- The part of a round made before a node: `made` stitches of `total`. -/
structure Share where
  made : Nat
  total : Nat
  deriving DecidableEq, Repr, Inhabited

/-- The share as a double. -/
def Share.toFloat (s : Share) : Float := s.made.toFloat / s.total.toFloat

/-- One stitch of a fabric. -/
structure Node where
  /-- Its place in the order of making. -/
  id : Nat
  /-- The stitch made before it, or itself. -/
  last : Nat
  /-- The stitch made after it, or itself. -/
  next : Nat
  /-- The stitch it is worked into, or itself. -/
  under : Nat
  /-- What kind of stitch it is. -/
  stitch : Stitch
  /-- The round it was made in, over everything worked so far. -/
  round : Nat
  /-- How far the round had come before it. -/
  progress : Share
  deriving DecidableEq, Repr, Inhabited

/-- Whether a node is a ring. -/
def Node.isRing (node : Node) : Bool := node.stitch == .loop

/-- Two nodes held at a distance: one stitch apart, or none for a slip stitch. -/
structure Edge where
  source : Nat
  target : Nat
  /-- The distance in stitch spacings. -/
  distance : Nat
  deriving DecidableEq, Repr, Inhabited

/-- Two nodes sewn onto one spot. -/
structure Joint where
  source : Nat
  target : Nat
  deriving DecidableEq, Repr, Inhabited

/-- A triangle between three nodes. -/
structure Face where
  a : Nat
  b : Nat
  c : Nat
  deriving DecidableEq, Repr, Inhabited

/-- Where the work stands. -/
structure Cursor where
  /-- The stitch worked into last. -/
  anchor? : Option Nat := none
  /-- Whether the next increase has to move on from the anchor. -/
  anchorSpent : Bool := false
  /-- Whether a ring has been worked into in this round. -/
  ringWorked : Bool := false
  /-- The number of rounds finished. -/
  round : Nat := 0
  /-- The number of instructions of the round in hand; zero outside a pattern. -/
  roundLength : Nat := 0
  /-- The number of nodes made in the round in hand. -/
  made : Nat := 0
  deriving DecidableEq, Repr, Inhabited

/-- A fabric and where the work on it stands. -/
structure Fabric where
  nodes : Array Node := #[]
  edges : Array Edge := #[]
  joints : Array Joint := #[]
  faces : Array Face := #[]
  /-- The live stitches, oldest first. -/
  outline : List Nat := []
  cursor : Cursor := {}
  /-- How many stitches have been worked into; a ring counts every time. -/
  consumed : Nat := 0
  deriving DecidableEq, Repr, Inhabited

namespace Fabric

/-- The fabric with nothing worked. -/
def empty : Fabric := {}

/-! ## Looking at a fabric -/

/-- The number of nodes. -/
def size (g : Fabric) : Nat := g.nodes.size

/-- The node with a number, if there is one. -/
def node? (g : Fabric) (id : Nat) : Option Node := g.nodes[id]?

/-- Whether a number is that of a ring. -/
def isRing (g : Fabric) (id : Nat) : Bool := (g.node? id).any Node.isRing

/-- The node with a number, or a fault if there is none. -/
def checkNode (g : Fabric) (id : Nat) : Except Fault Nat :=
  if id < g.size then .ok id else .error (.noSuchNode id g.size)

/-- The node made last, which is also the number of the first node before there is any. -/
def newest (g : Fabric) : Nat := g.size - 1

/-- The number of rounds that have nodes or are finished. -/
def roundsUsed (g : Fabric) : Nat := g.cursor.round + if 0 < g.cursor.made then 1 else 0

/-! ## Adding pieces -/

/-- How far the round in hand has come.  Stitches made outside a pattern form a round that never
gets to its end. -/
def share (g : Fabric) : Share :=
  ⟨g.cursor.made, max g.cursor.roundLength (g.cursor.made + 1)⟩

/-- Makes the node after the one made last, which from now on leads to it unless it is a ring. -/
def pushNode (g : Fabric) (stitch : Stitch) (last under : Nat) : Fabric :=
  let id := g.size
  let linked :=
    if stitch ≠ .loop ∧ last ≠ id ∧ g.isRing last = false then
      g.nodes.modify last fun node => { node with next := id }
    else g.nodes
  { g with
    nodes := linked.push ⟨id, last, id, under, stitch, g.cursor.round, g.share⟩
    cursor := { g.cursor with made := g.cursor.made + 1 } }

/-- Holds two nodes at a distance.  A node is not held at a distance from itself. -/
def addEdge (g : Fabric) (source target distance : Nat) : Fabric :=
  if source = target then g else { g with edges := g.edges.push ⟨source, target, distance⟩ }

/-- Sews two nodes onto one spot.  A node is not sewn to itself. -/
def addJoint (g : Fabric) (source target : Nat) : Fabric :=
  if source = target then g else { g with joints := g.joints.push ⟨source, target⟩ }

/-- Fills the triangle between three nodes, if they are different. -/
def addFace (g : Fabric) (a b c : Nat) : Fabric :=
  if a = b ∨ a = c ∨ b = c then g else { g with faces := g.faces.push ⟨a, b, c⟩ }

/-- A new stitch becomes live, and the one it is worked into becomes the anchor. -/
def finishStitch (g : Fabric) (id under : Nat) : Fabric :=
  { g with
    outline := g.outline ++ [id]
    cursor := { g.cursor with anchor? := some under, anchorSpent := false } }

/-- Takes the next live stitch to work into it.  A ring stays live. -/
def take? (g : Fabric) : Option (Nat × Fabric) :=
  match g.outline with
  | [] => none
  | front :: rest =>
    if g.isRing front then
      some (front,
        { g with consumed := g.consumed + 1, cursor := { g.cursor with ringWorked := true } })
    else some (front, { g with consumed := g.consumed + 1, outline := rest })

end Fabric

end Crochet
