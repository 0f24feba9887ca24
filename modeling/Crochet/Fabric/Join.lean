import Crochet.Fabric.Basic

/-!
# Joining two fabrics

Joining puts a second fabric beside a first.  The nodes of the second are numbered after those of
the first, its rounds are counted after those of the first, and the work goes on where the first
fabric left off.
-/

namespace Crochet

/-- A node with its numbers raised by `offset` and its round by `rounds`. -/
def Node.shift (offset rounds : Nat) (node : Node) : Node :=
  { node with
    id := node.id + offset
    last := node.last + offset
    next := node.next + offset
    under := node.under + offset
    round := node.round + rounds }

/-- An edge with its numbers raised. -/
def Edge.shift (offset : Nat) (edge : Edge) : Edge :=
  { edge with source := edge.source + offset, target := edge.target + offset }

/-- A joint with its numbers raised. -/
def Joint.shift (offset : Nat) (joint : Joint) : Joint :=
  ⟨joint.source + offset, joint.target + offset⟩

/-- A face with its numbers raised. -/
def Face.shift (offset : Nat) (face : Face) : Face :=
  ⟨face.a + offset, face.b + offset, face.c + offset⟩

/-- A fabric beside another one. -/
def Fabric.join (g other : Fabric) : Fabric :=
  { nodes := g.nodes ++ other.nodes.map (Node.shift g.size g.roundsUsed)
    edges := g.edges ++ other.edges.map (Edge.shift g.size)
    joints := g.joints ++ other.joints.map (Joint.shift g.size)
    faces := g.faces ++ other.faces.map (Face.shift g.size)
    outline := g.outline ++ other.outline.map (· + g.size)
    cursor := g.cursor
    consumed := g.consumed + other.consumed }

end Crochet
