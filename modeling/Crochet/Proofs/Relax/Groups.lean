import Crochet.Proofs.Relax.Forest
import Crochet.Relax.Group
import Mathlib.Logic.Relation

/-!
# Groups are what joints sew together

`Sewn joints i j` says that a chain of joints leads from node `i` to node `j`.  The forest that the
joints make has one tree for each set of nodes sewn together (`top_forest_eq_iff`), so the members
of a group are the nodes sewn to any of them.

* `ofJoints_eq`: the groups are the trees with at least two nodes, in the order of their roots.
* `pairwise_ofJoints`: no node is a member of two groups.
* `leader_mem`, `leader_eq_of_pinned`: a leader is a member, and a pinned member without a smaller
  pinned member beside it is the leader.
-/

namespace Crochet

/-- A chain of joints leads from one node to the other. -/
def Sewn (joints : Array Joint) : Nat → Nat → Prop :=
  Relation.EqvGen fun i j => (⟨i, j⟩ : Joint) ∈ joints

namespace Sewn

variable {joints : Array Joint} {i j k : Nat}

theorem refl (joints : Array Joint) (i : Nat) : Sewn joints i i :=
  Relation.EqvGen.refl i

theorem symm (h : Sewn joints i j) : Sewn joints j i :=
  Relation.EqvGen.symm i j h

theorem trans (h : Sewn joints i j) (h' : Sewn joints j k) : Sewn joints i k :=
  Relation.EqvGen.trans i j k h h'

theorem of_mem {joint : Joint} (h : joint ∈ joints) : Sewn joints joint.source joint.target :=
  Relation.EqvGen.rel _ _ h

/-- What is the same at both ends of every joint is the same at both ends of a chain of them. -/
theorem congr {α : Sort _} {v : Nat → α}
    (agrees : ∀ joint ∈ joints, v joint.source = v joint.target) (h : Sewn joints i j) :
    v i = v j :=
  congrArg (Quot.lift v fun i j hmem => agrees ⟨i, j⟩ hmem) (Quot.eqvGen_sound h)

end Sewn

namespace Forest

/-! ## Uniting along joints -/

/-- Whether both ends of a joint are numbers of the forest. -/
def Covers (f : Forest) (joint : Joint) : Prop :=
  joint.source < f.parents.size ∧ joint.target < f.parents.size

/-- The forest after the ends of all joints were brought together. -/
def unite (f : Forest) (joints : List Joint) : Forest :=
  joints.foldl (fun f joint => f.union joint.source joint.target) f

@[simp] theorem unite_nil (f : Forest) : f.unite [] = f := rfl

@[simp] theorem unite_cons (f : Forest) (joint : Joint) (rest : List Joint) :
    f.unite (joint :: rest) = (f.union joint.source joint.target).unite rest := rfl

@[simp] theorem unite_append (f : Forest) (first more : List Joint) :
    f.unite (first ++ more) = (f.unite first).unite more :=
  List.foldl_append

@[simp] theorem size_unite (f : Forest) (joints : List Joint) :
    (f.unite joints).parents.size = f.parents.size := by
  induction joints generalizing f with
  | nil => rfl
  | cons joint rest ih => rw [unite_cons, ih, size_union]

theorem covers_union {f : Forest} {joint : Joint} {rest : List Joint}
    (covered : ∀ other ∈ joint :: rest, f.Covers other) :
    ∀ other ∈ rest, (f.union joint.source joint.target).Covers other := by
  intro other hmem
  obtain ⟨hsource, htarget⟩ := covered other (List.mem_cons_of_mem _ hmem)
  rw [Covers, size_union]
  exact ⟨hsource, htarget⟩

/-- A union keeps together what is together. -/
theorem top_union_congr {f : Forest} {joint : Joint} (covered : f.Covers joint) {i j : Nat}
    (h : f.top i = f.top j) :
    (f.union joint.source joint.target).top i = (f.union joint.source joint.target).top j := by
  rw [top_union f covered.1 covered.2, top_union f covered.1 covered.2, h]

/-- A union brings its two numbers together. -/
theorem top_union_eq {f : Forest} {joint : Joint} (covered : f.Covers joint) :
    (f.union joint.source joint.target).top joint.source =
      (f.union joint.source joint.target).top joint.target := by
  rw [top_union f covered.1 covered.2, top_union f covered.1 covered.2]
  rcases max_min_cases (f.top joint.source) (f.top joint.target) with ⟨hmax, hmin⟩ | ⟨hmax, hmin⟩
  · rw [hmax, hmin, if_pos rfl]
    split <;> rfl
  · rw [hmax, hmin, if_pos rfl]
    split <;> rfl

theorem top_unite_congr {f : Forest} {joints : List Joint}
    (covered : ∀ joint ∈ joints, f.Covers joint) {i j : Nat} (h : f.top i = f.top j) :
    (f.unite joints).top i = (f.unite joints).top j := by
  induction joints generalizing f with
  | nil => exact h
  | cons joint rest ih =>
    exact ih (covers_union covered) (top_union_congr (covered joint List.mem_cons_self) h)

/-- The ends of every joint are together in the end. -/
theorem top_unite_of_mem {f : Forest} {joints : List Joint}
    (covered : ∀ joint ∈ joints, f.Covers joint) {joint : Joint} (h : joint ∈ joints) :
    (f.unite joints).top joint.source = (f.unite joints).top joint.target := by
  induction joints generalizing f with
  | nil => cases h
  | cons first rest ih =>
    rcases List.mem_cons.1 h with rfl | hmem
    · exact top_unite_congr (covers_union covered) (top_union_eq (covered joint List.mem_cons_self))
    · exact ih (covers_union covered) hmem

/-- If every number is sewn to its root, then it is sewn to its root after the union of two numbers
that are sewn together. -/
theorem sewn_top_union {f : Forest} {joints : Array Joint} {joint : Joint}
    (covered : f.Covers joint) (hmem : joint ∈ joints) (h : ∀ i, Sewn joints i (f.top i))
    (i : Nat) : Sewn joints i ((f.union joint.source joint.target).top i) := by
  have hroots : Sewn joints (f.top joint.source) (f.top joint.target) :=
    (h joint.source).symm.trans ((Sewn.of_mem hmem).trans (h joint.target))
  rw [top_union f covered.1 covered.2]
  split
  case isTrue hmax =>
    have hi := h i
    rw [hmax] at hi
    rcases max_min_cases (f.top joint.source) (f.top joint.target) with ⟨hmax, hmin⟩ | ⟨hmax, hmin⟩
    · rw [hmax] at hi
      rw [hmin]
      exact hi.trans hroots
    · rw [hmax] at hi
      rw [hmin]
      exact hi.trans hroots.symm
  case isFalse => exact h i

theorem sewn_top_unite {f : Forest} {all : Array Joint} {joints : List Joint}
    (covered : ∀ joint ∈ joints, f.Covers joint) (hall : ∀ joint ∈ joints, joint ∈ all)
    (h : ∀ i, Sewn all i (f.top i)) (i : Nat) : Sewn all i ((f.unite joints).top i) := by
  induction joints generalizing f with
  | nil => exact h i
  | cons joint rest ih =>
    have hcovered := covered joint List.mem_cons_self
    have hrest := fun other hmem => hall other (List.mem_cons_of_mem joint hmem)
    exact ih (covers_union covered) hrest
      (sewn_top_union hcovered (hall joint List.mem_cons_self) h)

end Forest

namespace Group

theorem forest_eq_unite (count : Nat) (joints : Array Joint) :
    forest count joints = (Forest.discrete count).unite joints.toList := by
  rw [forest, Forest.unite, Array.foldl_toList]

theorem covers_discrete {count : Nat} {joints : Array Joint}
    (bound : ∀ joint ∈ joints, joint.source < count ∧ joint.target < count) :
    ∀ joint ∈ joints.toList, (Forest.discrete count).Covers joint := by
  intro joint hmem
  simpa [Forest.Covers, Forest.discrete] using bound joint (Array.mem_toList_iff.1 hmem)

/-- **Two nodes are in one tree exactly when a chain of joints leads from one to the other.** -/
theorem top_forest_eq_iff {count : Nat} {joints : Array Joint}
    (bound : ∀ joint ∈ joints, joint.source < count ∧ joint.target < count) (i j : Nat) :
    (forest count joints).top i = (forest count joints).top j ↔ Sewn joints i j := by
  rw [forest_eq_unite]
  have covered := covers_discrete bound
  constructor
  · intro h
    have hsewn := Forest.sewn_top_unite covered (fun joint => Array.mem_toList_iff.1) fun i => by
      rw [Forest.top_discrete]
      exact Sewn.refl joints i
    have hi := hsewn i
    rw [h] at hi
    exact hi.trans (hsewn j).symm
  · intro h
    exact h.congr (v := (Forest.unite _ joints.toList).top) fun joint hmem =>
      Forest.top_unite_of_mem covered (Array.mem_toList_iff.2 hmem)

/-! ## Trees -/

/-- The numbers below `count` with a given root, in ascending order. -/
def tree (count : Nat) (f : Forest) (r : Nat) : List Nat :=
  (List.range count).filter fun i => f.root i = r

@[simp] theorem mem_tree {count : Nat} {f : Forest} {r i : Nat} :
    i ∈ tree count f r ↔ i < count ∧ f.root i = r := by
  simp [tree]

theorem ascending_tree (count : Nat) (f : Forest) (r : Nat) :
    (tree count f r).Pairwise (· < ·) :=
  List.pairwise_lt_range.filter _

/-- Sorting numbers by their roots puts each of them into its tree. -/
theorem getElem?_foldr_modify (f : Forest) (count : Nat) (ids : List Nat) (r : Nat) :
    (ids.foldr (fun i found => found.modify (f.root i) (i :: ·)) (Array.replicate count []))[r]? =
      if r < count then some (ids.filter fun i => f.root i = r) else none := by
  induction ids with
  | nil => simp [Array.getElem?_replicate]
  | cons i rest ih =>
    rw [List.foldr_cons, Array.getElem?_modify, ih]
    by_cases hroot : f.root i = r
    · by_cases hr : r < count
      · simp [hroot, hr]
      · simp [hr]
    · simp [hroot]

theorem classes_eq (count : Nat) (f : Forest) :
    classes count f = (List.range count).map (tree count f) := by
  refine List.ext_getElem? fun r => ?_
  rw [classes, Array.getElem?_toList, getElem?_foldr_modify, List.getElem?_map]
  by_cases hr : r < count
  · rw [if_pos hr, List.getElem?_range hr, Option.map_some, tree]
  · rw [if_neg hr, List.getElem?_eq_none (by simpa using hr), Option.map_none]

/-- The groups are the trees of two or more nodes. -/
theorem ofJoints_eq (count : Nat) (joints : Array Joint) (pins : Index Vec3) :
    ofJoints count joints pins =
      (((List.range count).map (tree count (forest count joints))).filter (1 < ·.length)).map
        (ofMembers pins) := by
  rw [ofJoints, classes_eq]

theorem mem_ofJoints {count : Nat} {joints : Array Joint} {pins : Index Vec3} {group : Group} :
    group ∈ ofJoints count joints pins ↔
      ∃ r, r < count ∧ 1 < (tree count (forest count joints) r).length ∧
        ofMembers pins (tree count (forest count joints) r) = group := by
  simp only [ofJoints_eq, List.mem_map, List.mem_filter, List.mem_range, decide_eq_true_eq]
  constructor
  · rintro ⟨_, ⟨⟨r, hr, rfl⟩, hlength⟩, rfl⟩
    exact ⟨r, hr, hlength, rfl⟩
  · rintro ⟨r, hr, hlength, rfl⟩
    exact ⟨_, ⟨⟨r, hr, rfl⟩, hlength⟩, rfl⟩

/-- No node is a member of two groups. -/
theorem pairwise_ofJoints (count : Nat) (joints : Array Joint) (pins : Index Vec3) :
    (ofJoints count joints pins).Pairwise fun g h => ∀ i ∈ g.members, i ∉ h.members := by
  rw [ofJoints_eq, List.pairwise_map]
  refine List.Pairwise.filter _ ?_
  rw [List.pairwise_map]
  refine List.nodup_range.imp ?_
  intro r r' hne i hi hi'
  rw [ofMembers, mem_tree] at hi hi'
  exact hne (hi.2.symm.trans hi'.2)

/-! ## Leaders -/

/-- A leader is one of the members. -/
theorem leader_mem (pins : Index Vec3) {members : List Nat} (h : members ≠ []) :
    (ofMembers pins members).leader ∈ members := by
  unfold ofMembers
  cases hfind : members.find? pins.contains with
  | some i => exact List.mem_of_find?_eq_some hfind
  | none =>
    cases members with
    | nil => exact absurd rfl h
    | cons first rest => exact List.mem_cons_self

/-- A pinned member leads if no smaller member is pinned. -/
theorem leader_eq_of_pinned {pins : Index Vec3} {members : List Nat}
    (ascending : members.Pairwise (· < ·)) {i : Nat} (hmem : i ∈ members)
    (hpin : pins.contains i = true) (least : ∀ j ∈ members, j < i → pins.contains j = false) :
    (ofMembers pins members).leader = i := by
  have hfind : members.find? pins.contains = some i := by
    obtain ⟨before, after, rfl⟩ := List.append_of_mem hmem
    refine List.find?_eq_some_iff_append.2 ⟨hpin, before, after, rfl, fun j hj => ?_⟩
    have hlt : j < i := (List.pairwise_append.1 ascending).2.2 j hj i List.mem_cons_self
    rw [least j (List.mem_append_left _ hj) hlt]
    rfl
  rw [ofMembers, hfind, Option.getD_some]

end Group

end Crochet
