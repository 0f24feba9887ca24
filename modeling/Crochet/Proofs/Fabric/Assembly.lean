import Crochet.Fabric.Join
import Crochet.Fabric.Work

/-!
# The algebra of joining

Fabrics under `join` are a monoid in all but one respect: it matters to the rounds of the third of
three fabrics whether the second was counted by the time it came.

`joinAfter` joins at a given number of rounds and is associative to the letter (`joinAfter_assoc`).
`join` takes that number from the first fabric, which is why `join_assoc_and_unit` speaks of fabrics
without the rounds of their nodes.
-/

namespace Crochet

/-! ## Raising numbers -/

theorem Node.shift_zero (node : Node) : node.shift 0 0 = node := rfl

theorem Node.shift_shift (m n r s : Nat) (node : Node) :
    (node.shift m r).shift n s = node.shift (n + m) (s + r) := by
  simp [Node.shift, Nat.add_assoc, Nat.add_comm n, Nat.add_comm s]

theorem Edge.shift_zero (edge : Edge) : edge.shift 0 = edge := rfl

theorem Edge.shift_shift (m n : Nat) (edge : Edge) :
    (edge.shift m).shift n = edge.shift (n + m) := by
  simp [Edge.shift, Nat.add_assoc, Nat.add_comm n]

theorem Joint.shift_zero (joint : Joint) : joint.shift 0 = joint := rfl

theorem Joint.shift_shift (m n : Nat) (joint : Joint) :
    (joint.shift m).shift n = joint.shift (n + m) := by
  simp [Joint.shift, Nat.add_assoc, Nat.add_comm n]

theorem Face.shift_zero (face : Face) : face.shift 0 = face := rfl

theorem Face.shift_shift (m n : Nat) (face : Face) :
    (face.shift m).shift n = face.shift (n + m) := by
  simp [Face.shift, Nat.add_assoc, Nat.add_comm n]

/-- A node that has forgotten in which round it was made. -/
def Node.undated (node : Node) : Node := { node with round := 0 }

namespace Fabric

/-! ## Joining at a given round -/

/-- A fabric beside another one whose rounds are counted after the first `rounds`. -/
def joinAfter (rounds : Nat) (g other : Fabric) : Fabric :=
  { nodes := g.nodes ++ other.nodes.map (Node.shift g.size rounds)
    edges := g.edges ++ other.edges.map (Edge.shift g.size)
    joints := g.joints ++ other.joints.map (Joint.shift g.size)
    faces := g.faces ++ other.faces.map (Face.shift g.size)
    outline := g.outline ++ other.outline.map (· + g.size)
    cursor := g.cursor
    consumed := g.consumed + other.consumed }

theorem join_eq_joinAfter (g other : Fabric) : g.join other = joinAfter g.roundsUsed g other := rfl

@[simp] theorem size_joinAfter (rounds : Nat) (g other : Fabric) :
    (joinAfter rounds g other).size = g.size + other.size := by
  simp [joinAfter, size]

/-- A joined fabric goes on where the first part left off, and so counts only its rounds. -/
@[simp] theorem roundsUsed_joinAfter (rounds : Nat) (g other : Fabric) :
    (joinAfter rounds g other).roundsUsed = g.roundsUsed := rfl

/-- Joining is associative once it is said at which round each part starts. -/
theorem joinAfter_assoc (r s : Nat) (a b c : Fabric) :
    joinAfter (r + s) (joinAfter r a b) c = joinAfter r a (joinAfter s b c) := by
  have hnode : Node.shift a.size r ∘ Node.shift b.size s = Node.shift (a.size + b.size) (r + s) :=
    funext (Node.shift_shift b.size a.size s r)
  have hedge : Edge.shift a.size ∘ Edge.shift b.size = Edge.shift (a.size + b.size) :=
    funext (Edge.shift_shift b.size a.size)
  have hjoint : Joint.shift a.size ∘ Joint.shift b.size = Joint.shift (a.size + b.size) :=
    funext (Joint.shift_shift b.size a.size)
  have hface : Face.shift a.size ∘ Face.shift b.size = Face.shift (a.size + b.size) :=
    funext (Face.shift_shift b.size a.size)
  have hid : (· + a.size) ∘ (· + b.size) = (· + (a.size + b.size)) := by
    funext id
    simp [Nat.add_assoc, Nat.add_comm a.size]
  have hsize := size_joinAfter r a b
  unfold joinAfter at hsize ⊢
  simp only [hsize, Array.map_append, Array.map_map, List.map_append, List.map_map, hnode, hedge,
    hjoint, hface, hid, Array.append_assoc, List.append_assoc, Nat.add_assoc]

theorem joinAfter_empty (r : Nat) (g : Fabric) : joinAfter r g empty = g := by
  simp [joinAfter, empty]

theorem empty_joinAfter (g : Fabric) : joinAfter 0 empty g = { g with cursor := empty.cursor } := by
  have hnode : Node.shift 0 0 = id := funext Node.shift_zero
  have hedge : Edge.shift 0 = id := funext Edge.shift_zero
  have hjoint : Joint.shift 0 = id := funext Joint.shift_zero
  have hface : Face.shift 0 = id := funext Face.shift_zero
  simp [joinAfter, empty, size, hnode, hedge, hjoint, hface]

/-! ## Fabrics without their rounds -/

/-- A fabric whose nodes have forgotten in which rounds they were made. -/
def undated (g : Fabric) : Fabric := { g with nodes := g.nodes.map Node.undated }

/-- Only the rounds of the second part tell at which round it was joined. -/
theorem undated_joinAfter (r s : Nat) (g other : Fabric) :
    (joinAfter r g other).undated = (joinAfter s g other).undated := by
  have hnode : Node.undated ∘ Node.shift g.size r = Node.undated ∘ Node.shift g.size s := rfl
  simp only [undated, joinAfter, Array.map_append, Array.map_map, hnode]

/-- **Joining is associative, with the empty fabric as its unit.**  Both ways of joining three
fabrics give the same nodes but for their rounds, the same edges, joints, faces and live stitches
in the same order, the same count and the same cursor.  An empty fabric joined on the right changes
nothing, and one on the left nothing but the cursor. -/
theorem join_assoc_and_unit (a b c : Fabric) :
    ((a.join b).join c).undated = (a.join (b.join c)).undated ∧
      a.join empty = a ∧ empty.join a = { a with cursor := empty.cursor } := by
  refine ⟨?_, joinAfter_empty a.roundsUsed a, empty_joinAfter a⟩
  calc ((a.join b).join c).undated
      = (joinAfter (a.roundsUsed + b.roundsUsed) (a.join b) c).undated :=
        undated_joinAfter _ _ (a.join b) c
    _ = (a.join (b.join c)).undated :=
        congrArg undated (joinAfter_assoc a.roundsUsed b.roundsUsed a b c)

/-- The rounds do depend on the way: three loops are of the rounds 0, 1, 1 or of the rounds 0, 1,
2. -/
example :
    let ring := empty.workLoop.endRound
    (((ring.join ring).join ring).nodes.map (·.round) = #[0, 1, 1] ∧
      (ring.join (ring.join ring)).nodes.map (·.round) = #[0, 1, 2]) := by decide +kernel

end Fabric

end Crochet
