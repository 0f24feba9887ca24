import Crochet.Proofs.Relax.Groups
import Crochet.Relax.Body

/-!
# Putting stitches into their places

Each pass of a tick ends with putting pinned stitches onto their pins, and then joined stitches onto
the leaders of their groups.  Two lemmas say where every stitch is after that.

* `find?_pins`: a node is pinned to the point of the last anchor given for it.
* `getElem?_holdPins`: a pinned stitch is on its pin, and any other is where it was.
* `getElem?_holdJoints`: a stitch is where its `spot` was, the leader of the nodes sewn to it.
* `spot_eq_of_sewn`, `spot_eq_self`: nodes sewn together share their spot, and the smallest pinned
  one of them is the spot.
-/

namespace Crochet

/-! ## The anchor that counts -/

namespace Anchor

/-- The point of the last anchor given for a node. -/
def last? (anchors : List Anchor) (node : Nat) : Option Vec3 :=
  (anchors.reverse.find? fun anchor => anchor.node == node).map position

@[simp] theorem last?_nil (node : Nat) : last? [] node = none := rfl

theorem last?_cons (anchor : Anchor) (rest : List Anchor) (node : Nat) :
    last? (anchor :: rest) node =
      (last? rest node).or (if node = anchor.node then some anchor.position else none) := by
  rw [last?, last?, List.reverse_cons, List.find?_append, Option.map_or]
  congr 1
  by_cases h : node = anchor.node
  · rw [if_pos h, List.find?_cons_of_pos (by simp [h]), Option.map_some]
  · rw [if_neg h, List.find?_cons_of_neg (by simpa using Ne.symm h), List.find?_nil,
      Option.map_none]

theorem addTo_eq_ok {count : Nat} {pins pins' : Index Vec3} {anchor : Anchor}
    (h : addTo count pins anchor = .ok pins') :
    anchor.node < count ∧ pins' = pins.insert anchor.node anchor.position := by
  unfold addTo at h
  split at h
  case isTrue => cases h
  case isFalse hlt =>
    split at h
    case isTrue =>
      cases h
      exact ⟨Nat.lt_of_not_le hlt, rfl⟩
    case isFalse => cases h

theorem foldlM_cons_eq_ok {count : Nat} {anchor : Anchor} {rest : List Anchor}
    {pins pins' : Index Vec3} (h : (anchor :: rest).foldlM (addTo count) pins = .ok pins') :
    anchor.node < count ∧
      rest.foldlM (addTo count) (pins.insert anchor.node anchor.position) = .ok pins' := by
  rw [List.foldlM_cons] at h
  cases hadd : addTo count pins anchor with
  | error fault =>
    rw [hadd] at h
    cases h
  | ok next =>
    rw [hadd] at h
    obtain ⟨hlt, rfl⟩ := addTo_eq_ok hadd
    exact ⟨hlt, h⟩

/-- The pins after some more anchors. -/
theorem find?_of_foldlM {count : Nat} {anchors : List Anchor} {pins pins' : Index Vec3}
    (h : anchors.foldlM (addTo count) pins = .ok pins') (node : Nat) :
    pins'.find? node = (last? anchors node).or (pins.find? node) := by
  induction anchors generalizing pins with
  | nil =>
    cases h
    rw [last?_nil, Option.none_or]
  | cons anchor rest ih =>
    obtain ⟨-, hrest⟩ := foldlM_cons_eq_ok h
    rw [ih hrest, Index.find?_insert, last?_cons, Option.or_assoc]
    congr 1
    split
    · rw [Option.some_or]
    · rw [Option.none_or]

/-- A node is pinned to the point of its last anchor. -/
theorem find?_pins {count : Nat} {anchors : List Anchor} {m : Index Vec3}
    (h : pins count anchors = .ok m) (node : Nat) : m.find? node = last? anchors node := by
  rw [find?_of_foldlM h, Index.find?_empty, Option.or_none]

theorem lt_of_foldlM {count : Nat} {anchors : List Anchor} {pins pins' : Index Vec3}
    (h : anchors.foldlM (addTo count) pins = .ok pins') :
    ∀ anchor ∈ anchors, anchor.node < count := by
  induction anchors generalizing pins with
  | nil => exact fun anchor hmem => nomatch hmem
  | cons first rest ih =>
    obtain ⟨hlt, hrest⟩ := foldlM_cons_eq_ok h
    intro anchor hmem
    rcases List.mem_cons.1 hmem with rfl | hmem
    · exact hlt
    · exact ih hrest anchor hmem

/-- Only nodes of the fabric can be pinned. -/
theorem lt_of_last? {count : Nat} {anchors : List Anchor} {m : Index Vec3}
    (h : pins count anchors = .ok m) {node : Nat} {point : Vec3}
    (hlast : last? anchors node = some point) : node < count := by
  obtain ⟨anchor, hfind, -⟩ := Option.map_eq_some_iff.1 hlast
  have hmem := List.mem_reverse.1 (List.mem_of_find?_eq_some hfind)
  have hnode : anchor.node = node := by simpa using List.find?_some hfind
  exact hnode ▸ lt_of_foldlM h anchor hmem

end Anchor

/-! ## The place of a joined node -/

namespace Group

/-- The node onto whose place the joints put a node: the leader of the nodes sewn to it. -/
def spot (count : Nat) (joints : Array Joint) (pins : Index Vec3) (i : Nat) : Nat :=
  let f := forest count joints
  (ofMembers pins (tree count f (f.root i))).leader

variable {count : Nat} {joints : Array Joint} {pins : Index Vec3} {i j : Nat}

theorem mem_tree_root (f : Forest) (hi : i < count) : i ∈ tree count f (f.root i) :=
  mem_tree.2 ⟨hi, rfl⟩

theorem spot_mem (joints : Array Joint) (pins : Index Vec3) (hi : i < count) :
    spot count joints pins i ∈
      tree count (forest count joints) ((forest count joints).root i) :=
  leader_mem pins (List.ne_nil_of_mem (mem_tree_root _ hi))

/-- Nodes sewn together share their spot. -/
theorem spot_eq_of_sewn (bound : ∀ joint ∈ joints, joint.source < count ∧ joint.target < count)
    (h : Sewn joints i j) : spot count joints pins i = spot count joints pins j := by
  have hroot : (forest count joints).root i = (forest count joints).root j := by
    rw [Forest.root_eq_top, Forest.root_eq_top, top_forest_eq_iff bound]
    exact h
  simp only [spot, hroot]

/-- A pinned node keeps its own spot unless a smaller pinned node is sewn to it. -/
theorem spot_eq_self (bound : ∀ joint ∈ joints, joint.source < count ∧ joint.target < count)
    (hi : i < count) (hpin : pins.contains i = true)
    (least : ∀ k < i, Sewn joints i k → pins.contains k = false) :
    spot count joints pins i = i := by
  refine leader_eq_of_pinned (ascending_tree _ _ _) (mem_tree_root _ hi) hpin fun k hk hlt => ?_
  have hroot := (mem_tree.1 hk).2
  rw [Forest.root_eq_top, Forest.root_eq_top, top_forest_eq_iff bound] at hroot
  exact least k hlt hroot.symm

/-- A node that no group has is its own spot. -/
theorem spot_eq_self_of_not_mem (hi : i < count)
    (h : ∀ group ∈ ofJoints count joints pins, i ∉ group.members) :
    spot count joints pins i = i := by
  have hmem := mem_tree_root (forest count joints) hi
  have hspot := spot_mem joints pins hi
  -- A tree of two nodes or more would be a group.
  have hlength : (tree count (forest count joints) ((forest count joints).root i)).length ≤ 1 := by
    refine Nat.le_of_not_lt fun hlength => h _ (mem_ofJoints.2 ⟨_, ?_, hlength, rfl⟩) hmem
    rw [Forest.root_eq_top]
    exact Nat.lt_of_le_of_lt (Forest.top_le _ i) hi
  generalize tree count (forest count joints) ((forest count joints).root i) = members at *
  match members, hlength with
  | [k], _ => rw [List.mem_singleton.1 hspot, List.mem_singleton.1 hmem]

end Group

namespace Body

/-! ## Putting stitches into their places -/

theorem pointAt_eq {points : Array Vec3} {i : Nat} (hi : i < points.size) :
    some (pointAt points i) = points[i]? := by
  rw [pointAt, Array.getD_eq_getD_getElem?, Array.getElem?_eq_getElem hi, Option.getD_some]

/-- The points after some of them were all put onto one. -/
theorem getElem?_foldl_setIfInBounds (ids : List Nat) (target : Vec3) (points : Array Vec3)
    (i : Nat) :
    (ids.foldl (fun points id => points.setIfInBounds id target) points)[i]? =
      if i ∈ ids ∧ i < points.size then some target else points[i]? := by
  induction ids generalizing points with
  | nil => simp
  | cons id rest ih =>
    rw [List.foldl_cons, ih, Array.size_setIfInBounds, Array.getElem?_setIfInBounds]
    by_cases hid : id = i
    · subst hid
      by_cases hlt : id < points.size
      · simp [hlt]
      · simp [hlt]
    · simp [hid, Ne.symm hid]

@[simp] theorem size_gather (points : Array Vec3) (group : Group) :
    (gather points group).size = points.size := by
  unfold gather
  generalize pointAt points group.leader = target
  induction group.members generalizing points with
  | nil => rfl
  | cons id rest ih => rw [List.foldl_cons, ih, Array.size_setIfInBounds]

theorem getElem?_gather (points : Array Vec3) (group : Group) (i : Nat) :
    (gather points group)[i]? =
      if i ∈ group.members ∧ i < points.size then some (pointAt points group.leader)
      else points[i]? :=
  getElem?_foldl_setIfInBounds group.members _ points i

@[simp] theorem size_holdJoints (groups : List Group) (points : Array Vec3) :
    (holdJoints groups points).size = points.size := by
  unfold holdJoints
  induction groups generalizing points with
  | nil => rfl
  | cons group rest ih => rw [List.foldl_cons, ih, size_gather]

@[simp] theorem size_holdPins (pins : Index Vec3) (points : Array Vec3) :
    (holdPins pins points).size = points.size := by
  unfold holdPins
  induction pins.entries generalizing points with
  | nil => rfl
  | cons entry rest ih => rw [List.foldl_cons, ih, Array.size_setIfInBounds]

@[simp] theorem size_hold (rig : Rig) (points : Array Vec3) :
    (hold rig points).size = points.size := by
  rw [hold, size_holdJoints, size_holdPins]

/-- Every pinned stitch is on its pin, and every other stitch is where it was. -/
theorem getElem?_holdPins (pins : Index Vec3) (points : Array Vec3) (i : Nat) :
    (holdPins pins points)[i]? = points[i]?.map fun p => (pins.find? i).getD p := by
  obtain ⟨entries, ascending⟩ := pins
  unfold holdPins Index.find?
  dsimp only
  induction entries generalizing points with
  | nil => simp
  | cons entry rest ih =>
    obtain ⟨hfirst, hrest⟩ := List.pairwise_cons.1 ascending
    rw [List.foldl_cons, ih _ hrest, Array.getElem?_setIfInBounds, List.lookup_cons]
    by_cases hi : entry.1 = i
    · -- A later entry has a larger number, so this is the one that counts.
      have hnone : rest.lookup i = none := by
        refine List.lookup_eq_none_iff.2 fun other hmem => ?_
        have hlt := hfirst other hmem
        rw [bne_iff_ne]
        omega
      subst hi
      by_cases hlt : entry.1 < points.size
      · simp [hnone, hlt]
      · simp [hlt]
    · rw [if_neg hi, beq_eq_false_iff_ne.2 (Ne.symm hi)]

theorem getElem?_holdJoints_of_not_mem {groups : List Group} {i : Nat}
    (h : ∀ group ∈ groups, i ∉ group.members) (points : Array Vec3) :
    (holdJoints groups points)[i]? = points[i]? := by
  unfold holdJoints
  induction groups generalizing points with
  | nil => rfl
  | cons group rest ih =>
    rw [List.foldl_cons, ih fun other hmem => h other (List.mem_cons_of_mem _ hmem),
      getElem?_gather, if_neg fun hi => h group List.mem_cons_self hi.1]

/-- A member of a group comes onto its leader, if no stitch is a member of two groups. -/
theorem getElem?_holdJoints_of_mem {groups : List Group}
    (disjoint : groups.Pairwise fun g h => ∀ i ∈ g.members, i ∉ h.members) {group : Group}
    (hgroup : group ∈ groups) (hleader : group.leader ∈ group.members) {i : Nat}
    (hi : i ∈ group.members) {points : Array Vec3} (hlt : i < points.size)
    (hlt' : group.leader < points.size) :
    (holdJoints groups points)[i]? = points[group.leader]? := by
  induction groups generalizing points with
  | nil => cases hgroup
  | cons first rest ih =>
    obtain ⟨hfirst, hrest⟩ := List.pairwise_cons.1 disjoint
    rcases List.mem_cons.1 hgroup with rfl | hmem
    · have hlater := fun other hother => hfirst other hother i hi
      refine (getElem?_holdJoints_of_not_mem hlater _).trans ?_
      rw [getElem?_gather, if_pos ⟨hi, hlt⟩, pointAt_eq hlt']
    · have hout : group.leader ∉ first.members := fun hin => hfirst group hmem _ hin hleader
      refine (ih hrest hmem (by simpa using hlt) (by simpa using hlt')).trans ?_
      rw [getElem?_gather, if_neg fun hin => hout hin.1]

/-- The joints put every stitch onto its spot. -/
theorem getElem?_holdJoints {count : Nat} (joints : Array Joint) (pins : Index Vec3)
    {points : Array Vec3} (hsize : points.size = count) {i : Nat} (hi : i < count) :
    (holdJoints (Group.ofJoints count joints pins) points)[i]? =
      points[Group.spot count joints pins i]? := by
  have hmem := Group.mem_tree_root (Group.forest count joints) hi
  by_cases hnone : ∀ group ∈ Group.ofJoints count joints pins, i ∉ group.members
  · rw [getElem?_holdJoints_of_not_mem hnone, Group.spot_eq_self_of_not_mem hi hnone]
  · obtain ⟨group, hgroup, hi'⟩ :
        ∃ group ∈ Group.ofJoints count joints pins, i ∈ group.members := by
      simpa using hnone
    obtain ⟨r, hr, hlength, rfl⟩ := Group.mem_ofJoints.1 hgroup
    obtain rfl : (Group.forest count joints).root i = r := (Group.mem_tree.1 hi').2
    have hspot := Group.spot_mem joints pins hi
    refine getElem?_holdJoints_of_mem (Group.pairwise_ofJoints count joints pins) hgroup hspot hmem
      (hsize ▸ hi) (hsize ▸ (Group.mem_tree.1 hspot).1)

end Body

end Crochet
