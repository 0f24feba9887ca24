import Crochet.Proofs.Relax.Groups
import Mathlib.Data.List.Sort
import Mathlib.Order.Bounds.Basic

/-!
# Groups are the components of the joints

`Components joints pins groups` says which groups are those of the joints: two nodes are in one
group exactly if a chain of joints leads from one to the other, no node is in two groups, groups and
their members come in ascending order, and each group is led by its smallest pinned member, or else
by its smallest.  The groups that the solver makes are so (`ofJoints_components`).

* `sweep_eq`: `Group.ofJoints` looks every root up in the forest that the joints have made.
  `Group.sweep` does it in place: each search goes on in the forest that the search before it has
  shortened, and notes the number under its root.  Shortening changes no root, so the groups are the
  same.
* `exists_group_iff`: groups are the sets of nodes that chains of joints lead through.
* `isLeast_tree`: the root of a tree is its smallest node, so groups come by smallest members.
* `isLeast_leader_of_pinned`, `isLeast_leader_of_free`: which member leads.
-/

namespace Crochet

/-! ## Entries of a map -/

namespace Index

variable {α : Type}

/-- The entries of a map are what one finds in it. -/
theorem mem_entries_iff (m : Index α) {key : Nat} {value : α} :
    (key, value) ∈ m.entries ↔ m.find? key = some value := by
  obtain ⟨entries, ascending⟩ := m
  show (key, value) ∈ entries ↔ entries.lookup key = some value
  induction entries with
  | nil => simp
  | cons entry rest ih =>
    obtain ⟨first, found⟩ := entry
    rw [List.pairwise_cons] at ascending
    rw [List.mem_cons, lookup_cons, ih ascending.2]
    by_cases hkey : key = first
    · have hbeyond : ¬rest.lookup key = some value := by
        intro hrest
        have hlt : first < key := ascending.1 _ ((ih ascending.2).2 hrest)
        omega
      rw [or_iff_left hbeyond, if_pos hkey]
      simp [hkey, eq_comm]
    · simp [hkey]

/-- A list in ascending order that holds what one finds in a map is the list of its entries. -/
theorem entries_eq (m : Index α) {entries : List (Nat × α)}
    (ascending : entries.Pairwise (·.1 < ·.1))
    (h : ∀ key value, (key, value) ∈ entries ↔ m.find? key = some value) :
    m.entries = entries := by
  have irrefl : Std.Irrefl fun a b : Nat × α => a.1 < b.1 := ⟨fun a => Nat.lt_irrefl a.1⟩
  have antisymm : Std.Antisymm fun a b : Nat × α => a.1 < b.1 :=
    ⟨fun _ _ hlt hgt => absurd hlt (Nat.lt_asymm hgt)⟩
  refine m.ascending.eq_of_mem_iff ascending ?_
  rintro ⟨key, value⟩
  rw [mem_entries_iff, h]

end Index

namespace Group

variable {count : Nat} {joints : Array Joint} {pins : Index Vec3}

/-! ## One sweep over the numbers -/

/-- Looks a number up in the forest that earlier searches have left, and notes it under its root. -/
def noteRoot (state : Forest × Index (List Nat)) (i : Nat) : Forest × Index (List Nat) :=
  let (f, root) := state.1.find i
  (f, state.2.insert root ((state.2.find? root).getD [] ++ [i]))

/-- The numbers below `count` by their roots, and the forest as the searches have left it. -/
def noteRoots (count : Nat) (f : Forest) : Forest × Index (List Nat) :=
  (List.range count).foldl noteRoot (f, {})

/-- The groups that joints make of `count` nodes, found in one sweep. -/
def sweep (count : Nat) (joints : Array Joint) (pins : Index Vec3) : List Group :=
  ((noteRoots count (forest count joints)).2.entries.map Prod.snd
    |>.filter (1 < ·.length)).map (ofMembers pins)

theorem tree_succ (count : Nat) (f : Forest) (r : Nat) :
    tree (count + 1) f r = tree count f r ++ if f.root count = r then [count] else [] := by
  by_cases hroot : f.root count = r
  · simp [tree, List.range_succ, hroot]
  · simp [tree, List.range_succ, hroot]

/-- A sweep changes no root, and notes every number under its own. -/
theorem noteRoots_spec (f : Forest) (count : Nat) :
    (∀ i, (noteRoots count f).1.top i = f.top i) ∧
      ∀ r, (noteRoots count f).2.find? r =
        if tree count f r = [] then none else some (tree count f r) := by
  induction count with
  | zero => simp [noteRoots, tree]
  | succ n ih =>
    obtain ⟨htop, hfind⟩ := ih
    have hstep : noteRoots (n + 1) f = noteRoot (noteRoots n f) n := by
      simp [noteRoots, List.range_succ]
    obtain ⟨hroot, hkeep, -⟩ := (noteRoots n f).1.find_spec n
    rw [htop, ← Forest.root_eq_top] at hroot
    rw [hstep]
    refine ⟨fun i => (hkeep i).trans (htop i), fun r => ?_⟩
    show ((noteRoots n f).2.insert _ _).find? r = _
    rw [Index.find?_insert, hroot, hfind, hfind, tree_succ]
    by_cases hr : r = f.root n
    · subst hr
      by_cases hnil : tree n f (f.root n) = []
      · simp [hnil]
      · simp [hnil]
    · have hr' : f.root n ≠ r := fun h => hr h.symm
      simp [hr, hr']

/-- The roots under which a number below `count` is noted are below `count` themselves. -/
theorem lt_of_tree_ne_nil {f : Forest} {r : Nat} (h : tree count f r ≠ []) : r < count := by
  obtain ⟨i, hi⟩ := List.exists_mem_of_ne_nil _ h
  obtain ⟨hlt, rfl⟩ := mem_tree.1 hi
  rw [Forest.root_eq_top]
  exact Nat.lt_of_le_of_lt (f.top_le i) hlt

theorem entries_noteRoots (f : Forest) (count : Nat) :
    (noteRoots count f).2.entries =
      ((List.range count).filter fun r => tree count f r ≠ []).map fun r =>
        (r, tree count f r) := by
  refine Index.entries_eq _ ?_ ?_
  · rw [List.pairwise_map]
    exact List.pairwise_lt_range.filter _
  · intro r members
    rw [(noteRoots_spec f count).2 r]
    by_cases hnil : tree count f r = []
    · simp [hnil]
    · simp [hnil, lt_of_tree_ne_nil hnil]

/-- **The groups found in one sweep are the groups.** -/
theorem sweep_eq (count : Nat) (joints : Array Joint) (pins : Index Vec3) :
    sweep count joints pins = ofJoints count joints pins := by
  have hlong : ∀ r, (decide (1 < (tree count (forest count joints) r).length) &&
      decide (tree count (forest count joints) r ≠ [])) =
        decide (1 < (tree count (forest count joints) r).length) := by
    intro r
    by_cases hnil : tree count (forest count joints) r = []
    · simp [hnil]
    · simp [hnil]
  simp only [sweep, ofJoints_eq, entries_noteRoots, List.map_map, List.filter_map,
    List.filter_filter, Function.comp_def, hlong]

/-! ## Chains of joints -/

/-- What holds of the ends of every joint holds of the ends of a chain of them, unless the chain is
empty. -/
theorem ends_of_sewn {p : Nat → Prop}
    (ends : ∀ joint ∈ joints, p joint.source ∧ p joint.target) {i j : Nat}
    (sewn : Sewn joints i j) : i = j ∨ p i ∧ p j := by
  induction sewn with
  | rel i j hmem => exact Or.inr (ends _ hmem)
  | refl i => exact Or.inl rfl
  | symm i j _ ih =>
    rcases ih with rfl | ⟨hi, hj⟩
    · exact Or.inl rfl
    · exact Or.inr ⟨hj, hi⟩
  | trans i j k _ _ ih ih' =>
    rcases ih with rfl | ⟨hi, hj⟩
    · exact ih'
    · rcases ih' with rfl | ⟨-, hk⟩
      · exact Or.inr ⟨hi, hj⟩
      · exact Or.inr ⟨hi, hk⟩

/-! ## Members -/

/-- The members of a group are the nodes that are sewn to each other. -/
theorem sewn_of_mem_tree (bound : ∀ joint ∈ joints, joint.source < count ∧ joint.target < count)
    {r i j : Nat} (hi : i ∈ tree count (forest count joints) r)
    (hj : j ∈ tree count (forest count joints) r) : Sewn joints i j := by
  have hroots := (mem_tree.1 hi).2.trans (mem_tree.1 hj).2.symm
  rw [Forest.root_eq_top, Forest.root_eq_top] at hroots
  exact (top_forest_eq_iff bound i j).1 hroots

theorem one_lt_length {members : List Nat} {i j : Nat} (hi : i ∈ members) (hj : j ∈ members)
    (hne : i ≠ j) : 1 < members.length := by
  match members with
  | [only] => simp_all
  | _ :: _ :: _ => simp

theorem exists_ne_of_one_lt_length {members : List Nat} (ascending : members.Pairwise (· < ·))
    (h : 1 < members.length) (i : Nat) : ∃ j ∈ members, i ≠ j := by
  match members with
  | first :: second :: rest =>
    have hlt : first < second := List.rel_of_pairwise_cons ascending List.mem_cons_self
    by_cases hi : i = first
    · exact ⟨second, by simp, by omega⟩
    · exact ⟨first, by simp, hi⟩

/-- Two different nodes are in one group exactly if they are sewn together. -/
theorem exists_group_iff (bound : ∀ joint ∈ joints, joint.source < count ∧ joint.target < count)
    (pins : Index Vec3) {i j : Nat} (hne : i ≠ j) :
    (∃ group ∈ ofJoints count joints pins, i ∈ group.members ∧ j ∈ group.members) ↔
      Sewn joints i j := by
  constructor
  · rintro ⟨group, hgroup, hi, hj⟩
    obtain ⟨r, -, -, rfl⟩ := mem_ofJoints.1 hgroup
    exact sewn_of_mem_tree bound hi hj
  · intro sewn
    obtain ⟨hi, hj⟩ := (ends_of_sewn (p := (· < count)) bound sewn).resolve_left hne
    have hroots := (top_forest_eq_iff bound i j).2 sewn
    rw [← Forest.root_eq_top, ← Forest.root_eq_top] at hroots
    have himem : i ∈ tree count (forest count joints) ((forest count joints).root j) :=
      mem_tree.2 ⟨hi, hroots⟩
    have hjmem : j ∈ tree count (forest count joints) ((forest count joints).root j) :=
      mem_tree.2 ⟨hj, rfl⟩
    have hlength := one_lt_length himem hjmem hne
    have hr := lt_of_tree_ne_nil (List.ne_nil_of_mem hjmem)
    exact ⟨_, mem_ofJoints.2 ⟨_, hr, hlength, rfl⟩, himem, hjmem⟩

/-- A member of a group is an end of a joint. -/
theorem touched_of_mem (bound : ∀ joint ∈ joints, joint.source < count ∧ joint.target < count)
    {group : Group} (hgroup : group ∈ ofJoints count joints pins) {i : Nat}
    (hi : i ∈ group.members) : ∃ joint ∈ joints, joint.source = i ∨ joint.target = i := by
  obtain ⟨r, -, hlength, rfl⟩ := mem_ofJoints.1 hgroup
  have hi' : i ∈ tree count (forest count joints) r := hi
  obtain ⟨j, hj, hne⟩ := exists_ne_of_one_lt_length (ascending_tree _ _ _) hlength i
  have touched : ∀ joint ∈ joints,
      (∃ other ∈ joints, other.source = joint.source ∨ other.target = joint.source) ∧
        ∃ other ∈ joints, other.source = joint.target ∨ other.target = joint.target :=
    fun joint hmem => ⟨⟨joint, hmem, Or.inl rfl⟩, ⟨joint, hmem, Or.inr rfl⟩⟩
  have hends := ends_of_sewn (p := fun k => ∃ joint ∈ joints, joint.source = k ∨ joint.target = k)
    touched (sewn_of_mem_tree bound hi' hj)
  exact (hends.resolve_left hne).1

/-! ## Smallest members -/

/-- The root of a tree is its smallest member. -/
theorem isLeast_tree {f : Forest} {r : Nat} (h : tree count f r ≠ []) :
    IsLeast {i | i ∈ tree count f r} r := by
  obtain ⟨i, hi⟩ := List.exists_mem_of_ne_nil _ h
  obtain ⟨hlt, hroot⟩ := mem_tree.1 hi
  rw [Forest.root_eq_top] at hroot
  constructor
  · show r ∈ tree count f r
    rw [mem_tree, Forest.root_eq_top]
    refine ⟨lt_of_tree_ne_nil h, Forest.top_of_root ?_⟩
    rw [← hroot, Forest.parent_top]
  · intro j hj
    obtain ⟨-, hj⟩ := mem_tree.1 hj
    rw [← hj, Forest.root_eq_top]
    exact f.top_le j

/-- The groups come by their smallest members. -/
theorem pairwise_least_ofJoints (count : Nat) (joints : Array Joint) (pins : Index Vec3) :
    (ofJoints count joints pins).Pairwise fun g h =>
      ∀ a b, IsLeast {i | i ∈ g.members} a → IsLeast {i | i ∈ h.members} b → a < b := by
  have hlt : ∀ r r', r < r' → 1 < (tree count (forest count joints) r).length →
      1 < (tree count (forest count joints) r').length → ∀ a b,
        IsLeast {i | i ∈ tree count (forest count joints) r} a →
          IsLeast {i | i ∈ tree count (forest count joints) r'} b → a < b := by
    intro r r' hr hlength hlength' a b ha hb
    have hne : tree count (forest count joints) r ≠ [] := by
      intro hnil
      simp [hnil] at hlength
    have hne' : tree count (forest count joints) r' ≠ [] := by
      intro hnil
      simp [hnil] at hlength'
    rw [ha.unique (isLeast_tree hne), hb.unique (isLeast_tree hne')]
    exact hr
  rw [ofJoints_eq, List.pairwise_map, List.pairwise_filter, List.pairwise_map]
  refine List.pairwise_lt_range.imp ?_
  intro r r' hr hlength hlength'
  exact hlt r r' hr (of_decide_eq_true hlength) (of_decide_eq_true hlength')

/-- A group with a pinned member is led by the smallest of them. -/
theorem isLeast_leader_of_pinned {members : List Nat} (ascending : members.Pairwise (· < ·))
    {pins : Index Vec3} {i : Nat} (hmem : i ∈ members) (hpin : pins.contains i = true) :
    IsLeast {i | i ∈ members ∧ pins.contains i = true} (ofMembers pins members).leader := by
  have hsome : (members.find? pins.contains).isSome := List.find?_isSome.2 ⟨i, hmem, hpin⟩
  obtain ⟨first, hfirst⟩ := Option.isSome_iff_exists.1 hsome
  obtain ⟨hpinned, before, after, rfl, hbefore⟩ := List.find?_eq_some_iff_append.1 hfirst
  have hleader : (ofMembers pins (before ++ first :: after)).leader = first := by
    simp [ofMembers, hfirst]
  rw [hleader]
  constructor
  · exact ⟨by simp, hpinned⟩
  · rintro j ⟨hj, hjpin⟩
    rcases List.mem_append.1 hj with hj | hj
    · exact absurd hjpin (by simpa using hbefore j hj)
    · rcases List.mem_cons.1 hj with rfl | hj
      · exact Nat.le_refl j
      · have hafter := (List.pairwise_append.1 ascending).2.1
        exact Nat.le_of_lt (List.rel_of_pairwise_cons hafter hj)

/-- A group without pinned members is led by its smallest. -/
theorem isLeast_leader_of_free {members : List Nat} (ascending : members.Pairwise (· < ·))
    (hne : members ≠ []) {pins : Index Vec3} (free : ∀ i ∈ members, pins.contains i = false) :
    IsLeast {i | i ∈ members} (ofMembers pins members).leader := by
  obtain ⟨first, rest, rfl⟩ := List.exists_cons_of_ne_nil hne
  have hnone : (first :: rest).find? pins.contains = none := by
    rw [List.find?_eq_none]
    intro i hi
    simp [free i hi]
  have hleader : (ofMembers pins (first :: rest)).leader = first := by
    simp [ofMembers, hnone]
  rw [hleader]
  constructor
  · exact List.mem_cons_self
  · intro j hj
    rcases List.mem_cons.1 hj with rfl | hj
    · exact Nat.le_refl j
    · exact Nat.le_of_lt (List.rel_of_pairwise_cons ascending hj)

/-! ## Components -/

/-- The groups are the components of the joints. -/
structure Components (joints : Array Joint) (pins : Index Vec3) (groups : List Group) : Prop where
  /-- Two nodes are in one group exactly if a chain of joints leads from one to the other. -/
  together : ∀ i j, i ≠ j →
    ((∃ group ∈ groups, i ∈ group.members ∧ j ∈ group.members) ↔ Sewn joints i j)
  /-- No node is in two groups. -/
  apart : groups.Pairwise fun g h => ∀ i ∈ g.members, i ∉ h.members
  /-- No node is a group of its own. -/
  several : ∀ group ∈ groups, 2 ≤ group.members.length
  /-- Members come in ascending order. -/
  ascending : ∀ group ∈ groups, group.members.Pairwise (· < ·)
  /-- A node that is no end of a joint is in no group. -/
  loose : ∀ i, (∀ joint ∈ joints, joint.source ≠ i ∧ joint.target ≠ i) →
    ∀ group ∈ groups, i ∉ group.members
  /-- Groups come by their smallest members. -/
  inOrder : groups.Pairwise fun g h =>
    ∀ a b, IsLeast {i | i ∈ g.members} a → IsLeast {i | i ∈ h.members} b → a < b
  /-- The smallest pinned member leads. -/
  pinned : ∀ group ∈ groups, (∃ i ∈ group.members, pins.contains i = true) →
    IsLeast {i | i ∈ group.members ∧ pins.contains i = true} group.leader
  /-- Where no member is pinned, the smallest leads. -/
  free : ∀ group ∈ groups, (∀ i ∈ group.members, pins.contains i = false) →
    IsLeast {i | i ∈ group.members} group.leader

/-- **Groups are the components of the joints**, for any number and order of joints between the
nodes, and any pins.  That each search for a root shortens the forest for the next changes no
group. -/
theorem ofJoints_components
    (bound : ∀ joint ∈ joints, joint.source < count ∧ joint.target < count) (pins : Index Vec3) :
    Components joints pins (ofJoints count joints pins) ∧
      sweep count joints pins = ofJoints count joints pins := by
  refine ⟨?_, sweep_eq count joints pins⟩
  constructor
  case together =>
    intro i j hne
    exact exists_group_iff bound pins hne
  case apart => exact pairwise_ofJoints count joints pins
  case several =>
    intro group hgroup
    obtain ⟨r, -, hlength, rfl⟩ := mem_ofJoints.1 hgroup
    exact hlength
  case ascending =>
    intro group hgroup
    obtain ⟨r, -, -, rfl⟩ := mem_ofJoints.1 hgroup
    exact ascending_tree count _ r
  case loose =>
    intro i untouched group hgroup hi
    obtain ⟨joint, hmem, hend⟩ := touched_of_mem bound hgroup hi
    obtain ⟨hsource, htarget⟩ := untouched joint hmem
    exact hend.elim hsource htarget
  case inOrder => exact pairwise_least_ofJoints count joints pins
  case pinned =>
    rintro group hgroup ⟨i, hi, hpin⟩
    obtain ⟨r, -, -, rfl⟩ := mem_ofJoints.1 hgroup
    exact isLeast_leader_of_pinned (ascending_tree count _ r) hi hpin
  case free =>
    intro group hgroup unpinned
    obtain ⟨r, -, hlength, rfl⟩ := mem_ofJoints.1 hgroup
    refine isLeast_leader_of_free (ascending_tree count _ r) ?_ unpinned
    exact List.ne_nil_of_length_pos (Nat.lt_trans Nat.zero_lt_one hlength)

/-- Two chains of joints between seven nodes, one of them pinned at its largest. -/
theorem ofJoints_components_two_chains :
    (∀ joint ∈ (#[⟨5, 2⟩, ⟨3, 0⟩, ⟨6, 5⟩, ⟨4, 4⟩, ⟨2, 6⟩] : Array Joint),
        joint.source < 7 ∧ joint.target < 7) ∧
      Components #[⟨5, 2⟩, ⟨3, 0⟩, ⟨6, 5⟩, ⟨4, 4⟩, ⟨2, 6⟩] (({} : Index Vec3).insert 6 default)
        [⟨0, [0, 3]⟩, ⟨6, [2, 5, 6]⟩] := by
  have bound : ∀ joint ∈ (#[⟨5, 2⟩, ⟨3, 0⟩, ⟨6, 5⟩, ⟨4, 4⟩, ⟨2, 6⟩] : Array Joint),
      joint.source < 7 ∧ joint.target < 7 := by decide
  have groups : ofJoints 7 #[⟨5, 2⟩, ⟨3, 0⟩, ⟨6, 5⟩, ⟨4, 4⟩, ⟨2, 6⟩]
      (({} : Index Vec3).insert 6 default) = [⟨0, [0, 3]⟩, ⟨6, [2, 5, 6]⟩] := by
    decide +kernel
  have components := (ofJoints_components bound (({} : Index Vec3).insert 6 default)).1
  rw [groups] at components
  exact ⟨bound, components⟩

end Group

end Crochet
