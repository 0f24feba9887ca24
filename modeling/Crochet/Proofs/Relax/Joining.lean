import Crochet.Fabric.Join
import Crochet.Proofs.Relax.Beside

/-!
# Joining leaves a part alone

The rig of two fabrics joined starts with the rig of the first one, and nothing in it leads from
the first to the second: neither a spring nor a triangle, nor a group, since the forest of the
joints keeps the trees of the two apart (`Forest.Beside`).  So the two run side by side
(`join_undisturbed`).
-/

namespace Crochet

/-! ## Forests side by side -/

namespace Forest

/-- A forest of `n` numbers, and one of more numbers with the same trees below `n`, in which no
other number has its root below `n`. -/
structure Beside (n : Nat) (f f' : Forest) : Prop where
  size_eq : f.parents.size = n
  size_le : n ≤ f'.parents.size
  top_eq : ∀ {i : Nat}, i < n → f'.top i = f.top i
  le_top : ∀ {i : Nat}, n ≤ i → n ≤ f'.top i

variable {n : Nat} {f f' : Forest}

theorem beside_discrete (n m : Nat) : Beside n (discrete n) (discrete (n + m)) where
  size_eq := Array.size_range
  size_le := by
    rw [discrete, Array.size_range]
    exact Nat.le_add_right n m
  top_eq _ := by rw [top_discrete, top_discrete]
  le_top hi := by rwa [top_discrete]

/-- A union below `n` in both forests. -/
theorem Beside.union (beside : Beside n f f') {a b : Nat} (ha : a < n) (hb : b < n) :
    Beside n (f.union a b) (f'.union a b) := by
  obtain ⟨size_eq, size_le, top_eq, le_top⟩ := beside
  have htop := top_union f (size_eq ▸ ha) (size_eq ▸ hb)
  have htop' := top_union f' (Nat.lt_of_lt_of_le ha size_le) (Nat.lt_of_lt_of_le hb size_le)
  have hle := f.top_le a
  have hle' := f.top_le b
  refine ⟨(size_union f a b).trans size_eq, (size_union f' a b).symm ▸ size_le, ?_, ?_⟩
  · intro i hi
    rw [htop', htop, top_eq ha, top_eq hb, top_eq hi]
  · intro i hi
    have hroot := le_top hi
    rw [htop', top_eq ha, top_eq hb, if_neg (by omega)]
    exact hroot

/-- A union of other numbers in the second forest. -/
theorem Beside.union_beyond (beside : Beside n f f') {a b : Nat} (ha : n ≤ a) (hb : n ≤ b)
    (ha' : a < f'.parents.size) (hb' : b < f'.parents.size) : Beside n f (f'.union a b) := by
  obtain ⟨size_eq, size_le, top_eq, le_top⟩ := beside
  have htop' := top_union f' ha' hb'
  have hroot := le_top ha
  have hroot' := le_top hb
  refine ⟨size_eq, (size_union f' a b).symm ▸ size_le, ?_, ?_⟩
  · intro i hi
    have hle := f.top_le i
    rw [htop', top_eq hi, if_neg (by omega)]
  · intro i hi
    rw [htop']
    split
    · omega
    · exact le_top hi

theorem Beside.unite (beside : Beside n f f') {joints : List Joint}
    (within : ∀ joint ∈ joints, joint.source < n ∧ joint.target < n) :
    Beside n (f.unite joints) (f'.unite joints) := by
  induction joints generalizing f f' with
  | nil => exact beside
  | cons joint rest ih =>
    obtain ⟨hsource, htarget⟩ := within joint List.mem_cons_self
    refine ih (beside.union hsource htarget) fun other hmem => ?_
    exact within other (List.mem_cons_of_mem _ hmem)

theorem Beside.unite_beyond (beside : Beside n f f') {joints : List Joint}
    (beyond : ∀ joint ∈ joints, n ≤ joint.source ∧ n ≤ joint.target)
    (covered : ∀ joint ∈ joints, f'.Covers joint) : Beside n f (f'.unite joints) := by
  induction joints generalizing f' with
  | nil => exact beside
  | cons joint rest ih =>
    obtain ⟨hsource, htarget⟩ := beyond joint List.mem_cons_self
    obtain ⟨hsource', htarget'⟩ := covered joint List.mem_cons_self
    exact ih (beside.union_beyond hsource htarget hsource' htarget')
      (fun other hmem => beyond other (List.mem_cons_of_mem _ hmem)) (covers_union covered)

end Forest

/-! ## Groups side by side -/

namespace Group

variable {n m : Nat}

/-- A tree below `n` is the same in both forests. -/
theorem tree_of_beside {f f' : Forest} (beside : Forest.Beside n f f') {r : Nat} (hr : r < n) :
    tree (n + m) f' r = tree n f r := by
  have hbelow : (List.range n).filter (fun i => f'.root i = r) = tree n f r := by
    refine List.filter_congr fun i hi => ?_
    rw [Forest.root_eq_top, Forest.root_eq_top, beside.top_eq (List.mem_range.1 hi)]
  have hbeyond : ((List.range m).map (n + ·)).filter (fun i => f'.root i = r) = [] := by
    refine List.filter_eq_nil_iff.2 fun i hi hroot => ?_
    obtain ⟨k, -, rfl⟩ := List.mem_map.1 hi
    have hle := beside.le_top (Nat.le_add_right n k)
    rw [decide_eq_true_eq, Forest.root_eq_top] at hroot
    omega
  rw [tree, List.range_add, List.filter_append, hbelow, hbeyond, List.append_nil]

theorem ends_subset_tree {count : Nat} {f : Forest} {pins : Index Vec3} {r : Nat}
    (hlength : 1 < (tree count f r).length) {i : Nat}
    (hi : i ∈ (ofMembers pins (tree count f r)).ends) : i ∈ tree count f r := by
  rcases List.mem_cons.1 hi with rfl | hmem
  · refine leader_mem pins fun hnil => ?_
    rw [hnil] at hlength
    exact absurd hlength (by decide)
  · exact hmem

/-- The members of a group and its leader are nodes. -/
theorem ends_lt {count : Nat} {joints : Array Joint} {pins : Index Vec3} {group : Group}
    (hgroup : group ∈ ofJoints count joints pins) : ∀ i ∈ group.ends, i < count := by
  intro i hi
  obtain ⟨r, -, hlength, rfl⟩ := mem_ofJoints.1 hgroup
  exact (mem_tree.1 (ends_subset_tree hlength hi)).1

/-- The groups of the first fabric come first, and the others have members of the second. -/
theorem continues_ofJoints {joints joints' : Array Joint}
    (beside : Forest.Beside n (forest n joints) (forest (n + m) joints')) (pins : Index Vec3) :
    Continues n Group.ends (ofJoints n joints pins) (ofJoints (n + m) joints' pins) := by
  let others := ((List.range m).map (n + ·)).map (tree (n + m) (forest (n + m) joints'))
  refine ⟨(others.filter (1 < ·.length)).map (ofMembers pins), ?all, ?within, ?beyond⟩
  case all =>
    have htrees : (List.range n).map (tree (n + m) (forest (n + m) joints')) =
        (List.range n).map (tree n (forest n joints)) :=
      List.map_congr_left fun r hr => tree_of_beside beside (List.mem_range.1 hr)
    rw [ofJoints_eq, ofJoints_eq, List.range_add, List.map_append, htrees, List.filter_append,
      List.map_append]
  case within => exact fun group => ends_lt
  case beyond =>
    intro group hgroup i hi
    obtain ⟨members, hmembers, rfl⟩ := List.mem_map.1 hgroup
    obtain ⟨hother, hlength⟩ := List.mem_filter.1 hmembers
    obtain ⟨r, hr, rfl⟩ := List.mem_map.1 hother
    obtain ⟨k, -, rfl⟩ := List.mem_map.1 hr
    have hroot := (mem_tree.1 (ends_subset_tree (of_decide_eq_true hlength) hi)).2
    rw [Forest.root_eq_top] at hroot
    have hle := (forest (n + m) joints').top_le i
    omega

end Group

/-! ## The rig of two fabrics joined -/

/-- The two ends of an edge. -/
def Edge.ends (edge : Edge) : List Nat := [edge.source, edge.target]

theorem continues_append {α : Type} {n : Nat} {ends : α → List Nat} {first rest : Array α}
    {shift : α → α} (within : ∀ x ∈ first, ∀ i ∈ ends x, i < n)
    (beyond : ∀ x, ∀ i ∈ ends (shift x), n ≤ i) :
    Continues n ends first.toList (first ++ rest.map shift).toList := by
  refine ⟨(rest.map shift).toList, Array.toList_append, ?_, ?_⟩
  · intro x hx
    exact within x (Array.mem_toList_iff.1 hx)
  · intro x hx
    obtain ⟨y, -, rfl⟩ := Array.mem_map.1 (Array.mem_toList_iff.1 hx)
    exact beyond y

namespace Fabric

variable {g : Fabric}

theorem WellFormed.continues_edges (wf : g.WellFormed) (other : Fabric) :
    Continues g.size Edge.ends g.edges.toList (g.join other).edges.toList := by
  refine continues_append (fun edge hmem i hi => ?_) (fun edge i hi => ?_)
  · obtain ⟨hback, hlt⟩ := wf.edge_lt edge hmem
    simp only [Edge.ends, List.mem_cons, List.not_mem_nil, or_false] at hi
    omega
  · simp only [Edge.ends, Edge.shift, List.mem_cons, List.not_mem_nil, or_false] at hi
    omega

theorem WellFormed.continues_faces (wf : g.WellFormed) (other : Fabric) :
    Continues g.size Face.ends g.faces.toList (g.join other).faces.toList := by
  refine continues_append (fun face hmem i hi => ?_) (fun face i hi => ?_)
  · obtain ⟨-, ha, hb, hc⟩ := wf.face_lt face hmem
    simp only [Face.ends, List.mem_cons, List.not_mem_nil, or_false] at hi
    omega
  · simp only [Face.ends, Face.shift, List.mem_cons, List.not_mem_nil, or_false] at hi
    omega

/-- The joints of two well-formed fabrics joined keep their trees apart. -/
theorem WellFormed.beside_forest (wf : g.WellFormed) {other : Fabric}
    (wfJoin : (g.join other).WellFormed) :
    Forest.Beside g.size (Group.forest g.size g.joints)
      (Group.forest (g.size + other.size) (g.join other).joints) := by
  have bound : ∀ joint ∈ g.joints, joint.source < g.size ∧ joint.target < g.size :=
    fun joint hmem => (wf.joint_lt joint hmem).2
  have bound' : ∀ joint ∈ (g.join other).joints,
      joint.source < g.size + other.size ∧ joint.target < g.size + other.size :=
    fun joint hmem => size_join g other ▸ (wfJoin.joint_lt joint hmem).2
  have covered := Group.covers_discrete bound'
  rw [Group.forest_eq_unite, Group.forest_eq_unite]
  rw [Fabric.join, Array.toList_append] at covered ⊢
  rw [Forest.unite_append]
  refine Forest.Beside.unite_beyond ?_ (fun joint hmem => ?_) (fun joint hmem => ?_)
  · exact (Forest.beside_discrete g.size other.size).unite fun joint hmem =>
      bound joint (Array.mem_toList_iff.1 hmem)
  · obtain ⟨shifted, -, rfl⟩ := Array.mem_map.1 (Array.mem_toList_iff.1 hmem)
    exact ⟨Nat.le_add_left _ _, Nat.le_add_left _ _⟩
  · simpa [Forest.Covers] using covered joint (List.mem_append_right _ hmem)

end Fabric

namespace Rig

/-! ## Neighbours -/

theorem mem_addNew {j k : Nat} {js : List Nat} (h : k ∈ addNew j js) : k = j ∨ k ∈ js := by
  unfold addNew at h
  split at h
  · exact .inr h
  · rcases List.mem_append.1 h with hold | hnew
    · exact .inr hold
    · exact .inl (List.mem_singleton.1 hnew)

theorem AllBelow.modify {n : Nat} {neighbours : Array (List Nat)} (h : AllBelow n neighbours)
    (k : Nat) {j : Nat} (hj : j < n) : AllBelow n (neighbours.modify k (addNew j)) := by
  intro i js hjs
  rw [Array.getElem?_modify] at hjs
  split at hjs
  case isTrue =>
    obtain ⟨old, hold, rfl⟩ := Option.map_eq_some_iff.1 hjs
    intro l hl
    rcases mem_addNew hl with rfl | hmem
    · exact hj
    · exact h i old hold l hmem
  case isFalse => exact h i js hjs

/-- The neighbours are stitches if the ends of all edges are. -/
theorem allBelow_neighboursOf {count : Nat} {edges : Array Edge}
    (bound : ∀ edge ∈ edges, edge.source < count ∧ edge.target < count) :
    AllBelow count (neighboursOf count edges) := by
  refine Array.foldl_induction (fun _ => AllBelow count) ?_ ?_
  · intro i js hjs
    rw [Array.getElem?_replicate] at hjs
    split at hjs
    · cases hjs
      exact fun j hj => nomatch hj
    · cases hjs
  · intro k neighbours hneighbours
    obtain ⟨hsource, htarget⟩ := bound edges[k] (Array.getElem_mem k.isLt)
    exact (hneighbours.modify _ htarget).modify _ hsource

theorem sameBelow_neighboursOf {n m : Nat} {edges edges' : Array Edge}
    (continues : Continues n Edge.ends edges.toList edges'.toList) :
    SameBelow n (neighboursOf n edges) (neighboursOf (n + m) edges') := by
  rw [neighboursOf, neighboursOf, ← Array.foldl_toList, ← Array.foldl_toList]
  refine SameBelow.foldl continues (fun edge _ => ?within) (fun edge hends => ?beyond)
    (SameBelow.replicate (Nat.le_add_right n m) [])
  case within =>
    intro xs ys hsame
    exact (hsame.modify edge.source _).modify edge.target _
  case beyond =>
    intro xs ys hsame
    have hsource : n ≤ edge.source := hends _ List.mem_cons_self
    have htarget : n ≤ edge.target := hends _ (List.mem_cons_of_mem _ List.mem_cons_self)
    exact (hsame.modify_beyond hsource _).modify_beyond htarget _

/-- **The rig of two fabrics joined is that of the first with another beside it.** -/
theorem beside_ofFabric {g other : Fabric} (wf : g.WellFormed) (wfJoin : (g.join other).WellFormed)
    (pins : Index Vec3) (settings : Settings) :
    Rig.Beside g.size (ofFabric g pins settings) (ofFabric (g.join other) pins settings) where
  settings_eq := rfl
  pins_eq := rfl
  springs := (wf.continues_edges other).map _ fun _ => rfl
  triangles := wf.continues_faces other
  groups := by
    rw [ofFabric, ofFabric, Fabric.size_join]
    exact Group.continues_ofJoints (wf.beside_forest wfJoin) pins
  neighbours := by
    rw [ofFabric, ofFabric, Fabric.size_join]
    exact sameBelow_neighboursOf (wf.continues_edges other)
  neighbours_lt := by
    have bound : ∀ edge ∈ g.edges, edge.source < g.size ∧ edge.target < g.size := by
      intro edge hmem
      obtain ⟨hback, hlt⟩ := wf.edge_lt edge hmem
      exact ⟨hlt, Nat.lt_trans hback hlt⟩
    exact allBelow_neighboursOf bound

theorem sameBelow_seeds (g other : Fabric) (settings : Settings) :
    SameBelow g.size (seeds g settings) (seeds (g.join other) settings) :=
  (SameBelow.append g.nodes _).map _

end Rig

/-! ## Pins on a part -/

namespace Anchor

variable {n m : Nat} {anchors : List Anchor}

/-- Anchors on the first `n` nodes set the same pins however many nodes there are. -/
theorem foldlM_addTo_congr (hle : n ≤ m) (hlt : ∀ anchor ∈ anchors, anchor.node < n)
    (pins : Index Vec3) : anchors.foldlM (addTo m) pins = anchors.foldlM (addTo n) pins := by
  induction anchors generalizing pins with
  | nil => rfl
  | cons anchor rest ih =>
    have hnode := hlt anchor List.mem_cons_self
    have hadd : addTo m pins anchor = addTo n pins anchor := by
      rw [addTo, addTo, if_neg (Nat.not_le_of_lt hnode),
        if_neg (Nat.not_le_of_lt (Nat.lt_of_lt_of_le hnode hle))]
    have hrest := ih fun other hmem => hlt other (List.mem_cons_of_mem _ hmem)
    rw [List.foldlM_cons, List.foldlM_cons, hadd]
    exact congrArg _ (funext hrest)

/-- Where there is an anchor, something is pinned. -/
theorem isEmpty_of_pins {m : Index Vec3} (h : pins n anchors = .ok m) (hne : anchors ≠ []) :
    m.isEmpty = false := by
  obtain ⟨anchor, rest, rfl⟩ := List.exists_cons_of_ne_nil hne
  have hfind := find?_pins h anchor.node
  rw [last?_cons, if_pos rfl] at hfind
  rw [Index.isEmpty, Bool.eq_false_iff]
  intro hempty
  rw [Index.find?, List.isEmpty_iff.1 hempty, List.lookup_nil] at hfind
  cases hlast : last? rest anchor.node with
  | none => simp [hlast] at hfind
  | some point => simp [hlast] at hfind

end Anchor

namespace Body

/-- Two fabrics on which the anchors set the same pins can both be set up, or fail alike. -/
theorem start_eq_error_iff {g g' : Fabric} {anchors : List Anchor} {settings : Settings}
    (hpins : Anchor.pins g'.size anchors = Anchor.pins g.size anchors) (fault : Fault) :
    start g' anchors settings = .error fault ↔ start g anchors settings = .error fault := by
  unfold start
  rw [hpins]
  cases settings.check with
  | error _ => rfl
  | ok _ =>
    cases Anchor.pins g.size anchors with
    | error _ => rfl
    | ok _ => simp

/-- **Joining a second part never disturbs the first.**  With anchors on the first part alone, and
if the body is not drawn back over the origin, the two parts joined can be set up exactly if the
first can, and after any ticks the first part is the same, to the last bit, whether or not the
second is beside it. -/
theorem join_undisturbed {g other : Fabric} (reach : g.Reachable) (reachOther : other.Reachable)
    {anchors : List Anchor} (hanchors : ∀ anchor ∈ anchors, anchor.node < g.size)
    {settings : Settings} (hfixed : settings.recenter = false ∨ anchors ≠ []) :
    (∀ fault, start (g.join other) anchors settings = .error fault ↔
      start g anchors settings = .error fault) ∧
    ∀ {s : Body}, start g anchors settings = .ok s →
      ∃ s', start (g.join other) anchors settings = .ok s' ∧ ∀ dts : List Float,
        let b := dts.foldl tick s
        let b' := dts.foldl tick s'
        SameBelow g.size b.positions b'.positions ∧ SameBelow g.size b.previous b'.previous ∧
          SameBelow g.size b.normals b'.normals ∧ SameBelow g.size b.forces b'.forces ∧
          b'.ticks = b.ticks := by
  have hpins : Anchor.pins (g.join other).size anchors = Anchor.pins g.size anchors := by
    rw [Fabric.size_join]
    exact Anchor.foldlM_addTo_congr (Nat.le_add_right _ _) hanchors {}
  refine ⟨start_eq_error_iff hpins, fun {s} hstart => ?_⟩
  obtain ⟨hcheck, pins, hpins', rfl⟩ := start_eq_ok hstart
  have fixed : (settings.recenter && pins.isEmpty) = false := by
    rcases hfixed with hrecenter | hne
    · rw [hrecenter, Bool.false_and]
    · rw [Anchor.isEmpty_of_pins hpins' hne, Bool.and_false]
  have wfJoin := (reach.join reachOther).wellFormed
  have hrig := Rig.beside_ofFabric reach.wellFormed wfJoin pins settings
  have hbeside := beside_atRest hrig fixed (Rig.sameBelow_seeds g other settings)
  have hstart' : start (g.join other) anchors settings =
      .ok (atRest (Rig.ofFabric (g.join other) pins settings)
        (Rig.seeds (g.join other) settings)) := by
    rw [start, hcheck, hpins, hpins']
  refine ⟨_, hstart', fun dts => ?_⟩
  obtain ⟨-, -, positions, previous, normals, forces, ticks_eq⟩ := hbeside.foldl_tick dts
  exact ⟨positions, previous, normals, forces, ticks_eq⟩

/-- A disc with an anchored ring moves alike with and without another disc beside it. -/
theorem join_undisturbed_discs :
    ∃ (disc : Fabric) (s s' : Body), disc.Reachable ∧ disc.size = 4 ∧
      start disc [⟨0, ⟨0.0, 0.0, 0.0⟩⟩] {} = .ok s ∧
      start (disc.join disc) [⟨0, ⟨0.0, 0.0, 0.0⟩⟩] {} = .ok s' ∧
      ((s'.tick 0.5).tick 0.1).positions[3]? = ((s.tick 0.5).tick 0.1).positions[3]? := by
  have hreach := Fabric.Reachable.append ⟨[[.loop], [.single, .increase, .increase]]⟩ .empty
  generalize hdisc : Fabric.worked _ = disc at hreach
  have hsize : disc.size = 4 := by
    rw [← hdisc]
    decide +kernel
  have hok : (start disc [⟨0, ⟨0.0, 0.0, 0.0⟩⟩] {}).isOk = true := by
    rw [← hdisc]
    decide +kernel
  have hanchors : ∀ anchor ∈ ([⟨0, ⟨0.0, 0.0, 0.0⟩⟩] : List Anchor), anchor.node < disc.size := by
    intro anchor hmem
    rw [List.mem_singleton.1 hmem, hsize]
    decide
  cases hstart : start disc [⟨0, ⟨0.0, 0.0, 0.0⟩⟩] {} with
  | error fault =>
    rw [hstart] at hok
    cases hok
  | ok s =>
    obtain ⟨s', hstart', halike⟩ :=
      (join_undisturbed hreach hreach hanchors (.inr (List.cons_ne_nil _ _))).2 hstart
    exact ⟨disc, s, s', hreach, hsize, hstart, hstart',
      (halike [0.5, 0.1]).1.same (hsize ▸ by decide)⟩

end Body

end Crochet
