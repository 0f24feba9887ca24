import Crochet.Fabric.Basic
import Crochet.Index
import Crochet.Relax.Forest
import Crochet.Vec3

/-!
# Groups of joined nodes

Joints sew nodes onto one spot, and a chain of joints sews all its nodes onto one.  A *group* is
such a set of two or more nodes.  One member leads it: the smallest that is pinned, or else the
smallest of all.
-/

namespace Crochet

/-- Nodes that share one spot. -/
structure Group where
  /-- The member that the others are put onto. -/
  leader : Nat
  /-- The members in ascending order. -/
  members : List Nat
  deriving DecidableEq, Repr, Inhabited

namespace Group

/-- The forest that joints make of `count` nodes. -/
def forest (count : Nat) (joints : Array Joint) : Forest :=
  joints.foldl (fun f joint => f.union joint.source joint.target) (Forest.discrete count)

/-- The numbers below `count` with a given root, for every root, in ascending order. -/
def classes (count : Nat) (f : Forest) : List (List Nat) :=
  ((List.range count).foldr (fun i found => found.modify (f.root i) (i :: ·))
    (Array.replicate count [])).toList

/-- The group of some members, led by the smallest that is pinned or else by the smallest. -/
def ofMembers (pins : Index Vec3) (members : List Nat) : Group where
  leader := (members.find? pins.contains).getD (members.headD 0)
  members := members

/-- The groups that joints make of `count` nodes, by their smallest members. -/
def ofJoints (count : Nat) (joints : Array Joint) (pins : Index Vec3) : List Group :=
  ((classes count (forest count joints)).filter (1 < ·.length)).map (ofMembers pins)

end Group

end Crochet
