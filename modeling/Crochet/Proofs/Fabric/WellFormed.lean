import Crochet.Proofs.Fabric.Reachable
import Crochet.Proofs.Fabric.Stitching

/-!
# Well-formed fabrics

`Linked` says how the nodes of a fabric are numbered and which node each of them points to, and
`WellFormed` adds that nothing in the fabric points beyond its nodes: edges, joints, faces, live
stitches and the anchor.  Every reachable fabric is well formed (`Reachable.wellFormed`).

The clauses lean on each other.  An edge of a slip stitch points backwards only because the outline
ascends, a stitch has a node below it only because something is live, and joining keeps the links
between neighbouring nodes only because every fabric starts with a ring.
-/

namespace Crochet

namespace Fabric

/-- Whether there is a node with a number that is not a ring. -/
def isStitchAt (nodes : Array Node) (i : Nat) : Bool := nodes[i]?.any fun node => !node.isRing

/-- Nodes numbered in the order of making, each linked to its neighbours.  A ring starts anew: no
node before it leads to it, and it leads to no other. -/
structure Linked (nodes : Array Node) : Prop where
  id_eq : ∀ {i : Nat} {node : Node}, nodes[i]? = some node → node.id = i
  first_isRing : ∀ {node : Node}, nodes[0]? = some node → node.isRing = true
  ring : ∀ {i : Nat} {node : Node}, nodes[i]? = some node → node.isRing = true →
    node.last = i ∧ node.under = i ∧ node.next = i
  stitch : ∀ {i : Nat} {node : Node}, nodes[i]? = some node → node.isRing = false →
    node.last + 1 = i ∧ node.under < i
  next_eq : ∀ {i : Nat} {node : Node}, nodes[i]? = some node →
    node.next = if isStitchAt nodes i && isStitchAt nodes (i + 1) then i + 1 else i

/-- A fabric in which nothing points beyond the nodes there are. -/
structure WellFormed (g : Fabric) : Prop where
  linked : Linked g.nodes
  /-- Every stitch is held to the one made before it. -/
  held : ∀ {i : Nat} {node : Node}, g.nodes[i]? = some node → node.isRing = false →
    (⟨i, i - 1, 1⟩ : Edge) ∈ g.edges
  outline_ascending : g.outline.Pairwise (· < ·)
  outline_lt : ∀ id ∈ g.outline, id < g.size
  edge_lt : ∀ edge ∈ g.edges, edge.target < edge.source ∧ edge.source < g.size
  joint_lt : ∀ joint ∈ g.joints,
    joint.source ≠ joint.target ∧ joint.source < g.size ∧ joint.target < g.size
  face_lt : ∀ face ∈ g.faces,
    (face.a ≠ face.b ∧ face.a ≠ face.c ∧ face.b ≠ face.c) ∧
      face.a < g.size ∧ face.b < g.size ∧ face.c < g.size
  anchor_lt : ∀ {id : Nat}, g.cursor.anchor? = some id → id < g.size

/-! ## Links -/

theorem isStitchAt_of_getElem? {nodes : Array Node} {i : Nat} {node : Node}
    (h : nodes[i]? = some node) : isStitchAt nodes i = !node.isRing := by
  rw [isStitchAt, h, Option.any_some]

theorem isStitchAt_of_size_le {nodes : Array Node} {i : Nat} (h : nodes.size ≤ i) :
    isStitchAt nodes i = false := by
  rw [isStitchAt, Array.getElem?_eq_none h, Option.any_none]

theorem isStitchAt_eq (g : Fabric) (i : Nat) :
    isStitchAt g.nodes i = (decide (i < g.size) && !g.isRing i) := by
  cases hnode : g.node? i with
  | none =>
    have hle := node?_eq_none_iff.1 hnode
    rw [isStitchAt_of_size_le hle, decide_eq_false (Nat.not_lt_of_le hle), Bool.false_and]
  | some node =>
    rw [isStitchAt_of_getElem? hnode, isRing_of_node? hnode,
      decide_eq_true (lt_size_of_node? hnode), Bool.true_and]

theorem isStitchAt_pushNode (g : Fabric) (stitch : Stitch) (last under i : Nat) :
    isStitchAt (g.pushNode stitch last under).nodes i =
      if i = g.size then stitch != .loop else isStitchAt g.nodes i := by
  rw [isStitchAt_eq, isStitchAt_eq, size_pushNode, isRing_pushNode]
  by_cases hi : i = g.size
  · simp [hi, bne]
  · have hlt : i < g.size + 1 ↔ i < g.size := by omega
    simp only [if_neg hi, hlt]

/-- What the node that is made is linked to: a ring to itself, a stitch to the newest node and to
some node below it. -/
def LinksTo (g : Fabric) (stitch : Stitch) (last under : Nat) : Prop :=
  stitch = .loop ∧ last = g.size ∧ under = g.size ∨
    stitch ≠ .loop ∧ last + 1 = g.size ∧ under < g.size

/-- A node of a fabric with one more node is the new one, or an older one that differs from what it
was in its link to the next one alone. -/
theorem getElem?_pushNode {g : Fabric} {stitch : Stitch} {last under i : Nat} {node : Node}
    (hnode : (g.pushNode stitch last under).nodes[i]? = some node) :
    i = g.size ∧ node = g.newNode stitch last under ∨
      i < g.size ∧ ∃ old, g.nodes[i]? = some old ∧ node.id = old.id ∧ node.last = old.last ∧
        node.under = old.under ∧ node.isRing = old.isRing ∧
        node.next = if i = last ∧ stitch ≠ .loop ∧ old.isRing = false then g.size
          else old.next := by
  have hpush := node?_pushNode g stitch last under i
  rw [node?, hnode] at hpush
  by_cases hi : i = g.size
  · rw [if_pos hi, Option.some.injEq] at hpush
    exact Or.inl ⟨hi, hpush⟩
  · rw [if_neg hi] at hpush
    obtain ⟨old, hold, rfl⟩ := Option.map_eq_some_iff.1 hpush.symm
    refine Or.inr ⟨lt_size_of_node? hold, old, hold, ?_⟩
    by_cases hlast : i = last
    · subst hlast
      rw [isRing_of_node? hold]
      split <;> simp_all [Node.isRing]
    · simp [hlast]

section

variable {g : Fabric} {stitch : Stitch} {last under : Nat}

theorem isRing_newNode : (g.newNode stitch last under).isRing = true ↔ stitch = .loop := by
  simp [newNode, Node.isRing]

/-- The node made last leads to the new one if both are stitches; every other link stays. -/
theorem Linked.next_pushNode (linked : Linked g.nodes) (links : g.LinksTo stitch last under)
    {i : Nat} {node : Node} (hnode : (g.pushNode stitch last under).nodes[i]? = some node) :
    node.next =
      if isStitchAt (g.pushNode stitch last under).nodes i &&
        isStitchAt (g.pushNode stitch last under).nodes (i + 1) then i + 1 else i := by
  rw [isStitchAt_pushNode, isStitchAt_pushNode]
  rcases getElem?_pushNode hnode with ⟨rfl, rfl⟩ | ⟨hlt, old, hold, -, -, -, -, hnext⟩
  · have hnone : isStitchAt g.nodes (g.size + 1) = false := isStitchAt_of_size_le (by simp [size])
    rw [if_neg (Nat.succ_ne_self _), hnone, Bool.and_false]
    rfl
  · rw [hnext, if_neg (Nat.ne_of_lt hlt), isStitchAt_of_getElem? hold, linked.next_eq hold,
      isStitchAt_of_getElem? hold]
    by_cases hnewest : i + 1 = g.size
    · -- The newest node had no next one, and leads to the new node if neither is a ring.
      have hnone : isStitchAt g.nodes (i + 1) = false :=
        isStitchAt_of_size_le (Nat.le_of_eq hnewest.symm)
      rw [if_pos hnewest, hnone]
      rcases links with ⟨rfl, -⟩ | ⟨hstitch, hlast, -⟩
      · simp
      · have hil : i = last := by omega
        cases hring : old.isRing with
        | false => simp [hil, hstitch, hlast]
        | true => simp
    · have hil : ¬(i = last ∧ stitch ≠ .loop ∧ old.isRing = false) := by
        rintro ⟨rfl, hstitch, -⟩
        rcases links with ⟨rfl, -⟩ | ⟨-, hlast, -⟩
        · exact hstitch rfl
        · exact hnewest hlast
      rw [if_neg hil, if_neg hnewest]

theorem Linked.pushNode (linked : Linked g.nodes) (links : g.LinksTo stitch last under) :
    Linked (g.pushNode stitch last under).nodes := by
  refine ⟨?id, ?first, ?ring, ?stitch, linked.next_pushNode links⟩
  case id =>
    intro i node hnode
    rcases getElem?_pushNode hnode with ⟨rfl, rfl⟩ | ⟨-, old, hold, hid, -⟩
    · rfl
    · exact hid.trans (linked.id_eq hold)
  case first =>
    intro node hnode
    rcases getElem?_pushNode hnode with ⟨hzero, rfl⟩ | ⟨-, old, hold, -, -, -, hring, -⟩
    · rcases links with ⟨hloop, -⟩ | ⟨-, hlast, -⟩
      · exact isRing_newNode.2 hloop
      · omega
    · exact hring.trans (linked.first_isRing hold)
  case ring =>
    intro i node hnode hring
    rcases getElem?_pushNode hnode with ⟨rfl, rfl⟩ | ⟨-, old, hold, -, hlast, hunder, hkind, hnext⟩
    · rcases links with ⟨-, rfl, rfl⟩ | ⟨hstitch, -⟩
      · exact ⟨rfl, rfl, rfl⟩
      · exact absurd (isRing_newNode.1 hring) hstitch
    · have hring' : old.isRing = true := hkind ▸ hring
      obtain ⟨h₁, h₂, h₃⟩ := linked.ring hold hring'
      exact ⟨hlast.trans h₁, hunder.trans h₂, by simp [hnext, hring', h₃]⟩
  case stitch =>
    intro i node hnode hring
    rcases getElem?_pushNode hnode with ⟨rfl, rfl⟩ | ⟨-, old, hold, -, hlast, hunder, hkind, -⟩
    · rcases links with ⟨hloop, -⟩ | ⟨-, hlast, hunder⟩
      · exact absurd ((isRing_newNode.2 hloop).symm.trans hring) (by decide)
      · exact ⟨hlast, hunder⟩
    · rw [hlast, hunder]
      exact linked.stitch hold (hkind ▸ hring)

end

/-! ## What work keeps -/

theorem size_eq_of_nodes {g h : Fabric} (hnodes : h.nodes = g.nodes) : h.size = g.size := by
  rw [size, size, hnodes]

/-- A fabric stays well formed when live stitches drop out and the cursor moves off the anchor in
nothing but its counters. -/
theorem WellFormed.of_sublist {g h : Fabric} (wf : g.WellFormed) (hnodes : h.nodes = g.nodes)
    (hedges : h.edges = g.edges) (hjoints : h.joints = g.joints) (hfaces : h.faces = g.faces)
    (houtline : h.outline.Sublist g.outline) (hanchor : h.cursor.anchor? = g.cursor.anchor?) :
    h.WellFormed := by
  have hsize := size_eq_of_nodes hnodes
  constructor
  case linked =>
    rw [hnodes]
    exact wf.linked
  case held =>
    rw [hnodes, hedges]
    exact wf.held
  case outline_ascending => exact wf.outline_ascending.sublist houtline
  case outline_lt =>
    rw [hsize]
    exact fun id hid => wf.outline_lt id (houtline.subset hid)
  case edge_lt =>
    rw [hsize, hedges]
    exact wf.edge_lt
  case joint_lt =>
    rw [hsize, hjoints]
    exact wf.joint_lt
  case face_lt =>
    rw [hsize, hfaces]
    exact wf.face_lt
  case anchor_lt =>
    rw [hsize, hanchor]
    exact wf.anchor_lt

theorem WellFormed.empty : (Fabric.empty).WellFormed := by
  refine ⟨⟨?_, ?_, ?_, ?_, ?_⟩, ?_, ?_, ?_, ?_, ?_, ?_, ?_⟩ <;> simp [Fabric.empty]

/-- A fabric stays well formed when a node is made after the newest one and takes its place at the
end of the outline, whatever edges and faces join it to older nodes. -/
theorem WellFormed.grow {g h : Fabric} (wf : g.WellFormed) {stitch : Stitch} {last under : Nat}
    (edges : List Edge) (faces : List Face) (links : g.LinksTo stitch last under)
    (hnodes : h.nodes = (g.pushNode stitch last under).nodes)
    (hedges : h.edges = g.edges ++ edges.toArray)
    (hedge : ∀ edge ∈ edges, edge.target < edge.source ∧ edge.source < g.size + 1)
    (hheld : stitch ≠ .loop → (⟨g.size, g.size - 1, 1⟩ : Edge) ∈ edges)
    (hjoints : h.joints = g.joints) (hfaces : h.faces = g.faces ++ faces.toArray)
    (hface : ∀ face ∈ faces, (face.a ≠ face.b ∧ face.a ≠ face.c ∧ face.b ≠ face.c) ∧
      face.a < g.size + 1 ∧ face.b < g.size + 1 ∧ face.c < g.size + 1)
    (houtline : h.outline = g.outline ++ [g.size])
    (hanchor : ∀ {id : Nat}, h.cursor.anchor? = some id → id < g.size + 1) : h.WellFormed := by
  have hsize : h.size = g.size + 1 := by
    rw [size, hnodes]
    exact size_pushNode g stitch last under
  constructor
  case linked =>
    rw [hnodes]
    exact wf.linked.pushNode links
  case held =>
    intro i node hnode hring
    rw [hnodes] at hnode
    rw [hedges, Array.mem_append]
    rcases getElem?_pushNode hnode with ⟨rfl, rfl⟩ | ⟨-, old, hold, -, -, -, hkind, -⟩
    · have hstitch : stitch ≠ .loop := fun hloop =>
        absurd ((isRing_newNode.2 hloop).symm.trans hring) (by decide)
      exact Or.inr (by simpa using hheld hstitch)
    · exact Or.inl (wf.held hold (hkind ▸ hring))
  case outline_ascending =>
    rw [houtline, List.pairwise_append]
    refine ⟨wf.outline_ascending, List.pairwise_singleton _ _, fun id hid new hnew => ?_⟩
    rw [List.mem_singleton] at hnew
    exact hnew ▸ wf.outline_lt id hid
  case outline_lt =>
    rw [houtline, hsize, List.forall_mem_append]
    refine ⟨fun id hid => Nat.lt_succ_of_lt (wf.outline_lt id hid), fun id hid => ?_⟩
    exact List.mem_singleton.1 hid ▸ Nat.lt_succ_self _
  case edge_lt =>
    rw [hedges, hsize, Array.forall_mem_append]
    refine ⟨fun edge hmem => ?_, fun edge hmem => hedge edge (by simpa using hmem)⟩
    obtain ⟨hback, hlt⟩ := wf.edge_lt edge hmem
    exact ⟨hback, Nat.lt_succ_of_lt hlt⟩
  case joint_lt =>
    rw [hjoints, hsize]
    intro joint hmem
    obtain ⟨hapart, hsource, htarget⟩ := wf.joint_lt joint hmem
    exact ⟨hapart, Nat.lt_succ_of_lt hsource, Nat.lt_succ_of_lt htarget⟩
  case face_lt =>
    rw [hfaces, hsize, Array.forall_mem_append]
    refine ⟨fun face hmem => ?_, fun face hmem => hface face (by simpa using hmem)⟩
    obtain ⟨hapart, ha, hb, hc⟩ := wf.face_lt face hmem
    exact ⟨hapart, Nat.lt_succ_of_lt ha, Nat.lt_succ_of_lt hb, Nat.lt_succ_of_lt hc⟩
  case anchor_lt =>
    rw [hsize]
    exact hanchor

theorem WellFormed.workLoop {g : Fabric} (wf : g.WellFormed) : g.workLoop.WellFormed := by
  refine wf.grow [] [] (Or.inl ⟨rfl, rfl, rfl⟩) rfl ?_ ?_ ?_ rfl ?_ ?_ rfl ?_
  · simp [Fabric.workLoop, finishStitch, pushNode]
  · simp
  · exact fun h => absurd rfl h
  · simp [Fabric.workLoop, finishStitch, pushNode]
  · simp
  · intro id hid
    obtain rfl := Option.some.inj hid
    exact Nat.lt_succ_self _

theorem WellFormed.weave {g : Fabric} (wf : g.WellFormed) {stitch : Stitch} {under : Nat}
    {ends : List Nat} {corners : List (Nat × Nat)} (hstitch : stitch ≠ .loop)
    (hunder : under < g.size) (hends : ∀ e ∈ ends, e < g.size) (hheld : g.newest ∈ ends)
    (hcorners : ∀ c ∈ corners, c.1 < g.size ∧ c.2 < g.size) :
    (g.weave stitch under ends corners).WellFormed := by
  have hnewest : g.newest + 1 = g.size := by
    unfold newest
    omega
  rw [weave_eq]
  refine wf.grow (stitchEdges g.size ends) (stitchFaces g.size corners)
    (Or.inr ⟨hstitch, hnewest, hunder⟩) rfl rfl ?_ ?_ rfl rfl ?_ rfl ?_
  · intro edge hmem
    obtain ⟨e, he, rfl⟩ := List.mem_map.1 hmem
    exact ⟨hends e (List.mem_filter.1 he).1, Nat.lt_succ_self _⟩
  · intro _
    refine List.mem_map.2 ⟨g.newest, List.mem_filter.2 ⟨hheld, ?_⟩, rfl⟩
    simp only [decide_eq_true_eq, ne_eq]
    omega
  · intro face hmem
    obtain ⟨c, hc, rfl⟩ := List.mem_map.1 hmem
    obtain ⟨hc, hapart⟩ := List.mem_filter.1 hc
    have := hcorners c hc
    exact ⟨by simpa using hapart, by simp; omega⟩
  · intro id hid
    obtain rfl := Option.some.inj hid
    exact Nat.lt_succ_of_lt hunder

theorem WellFormed.markRing {g : Fabric} (wf : g.WellFormed) : g.markRing.WellFormed :=
  wf.of_sublist rfl rfl rfl rfl (List.Sublist.refl _) rfl

/-- Taking a live stitch changes no node and no anchor, and the stitch is a node. -/
theorem WellFormed.take {g h : Fabric} (wf : g.WellFormed) {front : Nat}
    (htake : g.take? = some (front, h)) : h.WellFormed ∧ front < h.size := by
  obtain ⟨hhead, hcases⟩ := take?_eq_some htake
  have hlt : front < g.size := wf.outline_lt front (List.mem_of_head? hhead)
  rcases hcases with ⟨-, rfl⟩ | ⟨-, rfl⟩
  · exact ⟨wf.of_sublist rfl rfl rfl rfl (List.Sublist.refl _) rfl, hlt⟩
  · exact ⟨wf.of_sublist rfl rfl rfl rfl (List.tail_sublist _) rfl, hlt⟩

theorem newest_lt {g : Fabric} (h : 0 < g.size) : g.newest < g.size := by
  unfold newest
  omega

/-- The anchor, or the stitch worked into if there is none, is a node. -/
theorem WellFormed.anchor_getD_lt {g : Fabric} (wf : g.WellFormed) {under : Nat}
    (hunder : under < g.size) : g.cursor.anchor?.getD under < g.size := by
  cases hanchor : g.cursor.anchor? with
  | none => exact hunder
  | some anchor => exact wf.anchor_lt hanchor

theorem WellFormed.weaveNext {g : Fabric} (wf : g.WellFormed) {stitch : Stitch} {under : Nat}
    (hstitch : stitch ≠ .loop) (hunder : under < g.size) :
    (g.weaveNext stitch under).WellFormed := by
  have hnewest := newest_lt (Nat.zero_lt_of_lt hunder)
  have hanchor := wf.anchor_getD_lt hunder
  refine wf.weave hstitch hunder ?_ (by simp) ?_
  · simp [hnewest, hunder, hanchor]
  · simp [hnewest, hunder, hanchor]

theorem WellFormed.weaveShared {g : Fabric} (wf : g.WellFormed) {anchor : Nat}
    (hanchor : anchor < g.size) : (g.weaveShared anchor).WellFormed := by
  have hnewest := newest_lt (Nat.zero_lt_of_lt hanchor)
  refine wf.weave (by decide) hanchor ?_ (by simp) ?_
  · simp [hnewest, hanchor]
  · simp [hnewest, hanchor]

theorem WellFormed.weaveOver {g : Fabric} (wf : g.WellFormed) {middle under : Nat}
    (hmiddle : middle < g.size) (hunder : under < g.size) :
    (g.weaveOver middle under).WellFormed := by
  have hnewest := newest_lt (Nat.zero_lt_of_lt hunder)
  have hanchor := wf.anchor_getD_lt hmiddle
  refine wf.weave (by decide) hunder ?_ (by simp) ?_
  · simp [hnewest, hmiddle, hunder, hanchor]
  · simp [hnewest, hmiddle, hunder, hanchor]

/-- Of two live stitches, the newest was made after the oldest. -/
theorem WellFormed.head_lt_last {g : Fabric} (wf : g.WellFormed) {newest oldest : Nat}
    (hlast : g.outline.getLast? = some newest) (hfirst : g.outline.head? = some oldest)
    (hapart : newest ≠ oldest) : oldest < newest := by
  cases hout : g.outline with
  | nil => simp [hout] at hfirst
  | cons first rest =>
    rw [hout] at hlast hfirst
    obtain rfl : first = oldest := by simpa using hfirst
    have hmem : newest ∈ first :: rest := List.mem_of_getLast? hlast
    have hsorted := wf.outline_ascending
    rw [hout, List.pairwise_cons] at hsorted
    rcases List.mem_cons.1 hmem with rfl | hrest
    · exact absurd rfl hapart
    · exact hsorted.1 newest hrest

theorem WellFormed.addEdge {g : Fabric} (wf : g.WellFormed) {source target : Nat} (distance : Nat)
    (htarget : target < source) (hsource : source < g.size) :
    (g.addEdge source target distance).WellFormed := by
  have hapart : source ≠ target := by omega
  rw [Fabric.addEdge, if_neg hapart]
  refine { wf with held := ?_, edge_lt := ?_ }
  · intro i node hnode hring
    exact Array.mem_push_of_mem _ (wf.held hnode hring)
  · intro edge hmem
    rcases Array.mem_push.1 hmem with hold | rfl
    · exact wf.edge_lt edge hold
    · exact ⟨htarget, hsource⟩

theorem WellFormed.addJoint {g : Fabric} (wf : g.WellFormed) {source target : Nat}
    (hsource : source < g.size) (htarget : target < g.size) :
    (g.addJoint source target).WellFormed := by
  unfold Fabric.addJoint
  split
  · exact wf
  · rename_i hapart
    refine { wf with joint_lt := fun joint hmem => ?_ }
    rcases Array.mem_push.1 hmem with hold | rfl
    · exact wf.joint_lt joint hold
    · exact ⟨hapart, hsource, htarget⟩

theorem size_addJoint (g : Fabric) (source target : Nat) :
    (g.addJoint source target).size = g.size := by
  unfold addJoint
  split <;> rfl

theorem WellFormed.sew {g : Fabric} (wf : g.WellFormed) (pairs : List (Nat × Nat))
    (hpairs : ∀ pair ∈ pairs, pair.1 < g.size ∧ pair.2 < g.size) :
    (pairs.foldl (fun h pair => h.addJoint pair.1 pair.2) g).WellFormed := by
  induction pairs generalizing g with
  | nil => exact wf
  | cons pair rest ih =>
    have hpair := hpairs pair (List.mem_cons_self ..)
    refine ih (wf.addJoint hpair.1 hpair.2) fun other hother => ?_
    rw [size_addJoint]
    exact hpairs other (List.mem_cons_of_mem _ hother)

/-- Both stitches of a pair are live. -/
theorem mem_of_mem_endPairs {live : List Nat} {pair : Nat × Nat} (h : pair ∈ endPairs live) :
    pair.1 ∈ live ∧ pair.2 ∈ live := by
  have hmem := List.of_mem_zip (List.mem_of_mem_take h)
  exact ⟨hmem.1, List.mem_reverse.1 hmem.2⟩

theorem WellFormed.workFinish {g : Fabric} (wf : g.WellFormed) : g.workFinish.WellFormed := by
  have hsewn := wf.sew (endPairs g.outline) fun pair hpair =>
    ⟨wf.outline_lt _ (mem_of_mem_endPairs hpair).1, wf.outline_lt _ (mem_of_mem_endPairs hpair).2⟩
  refine hsewn.of_sublist rfl rfl rfl rfl (List.nil_sublist _) ?_
  rw [foldl_addJoint]
  rfl

/-- Every instruction keeps a fabric well formed. -/
theorem WellFormed.apply {g h : Fabric} {i : Instruction} (wf : g.WellFormed)
    (happly : g.apply i = .ok h) : h.WellFormed := by
  cases works_of_apply happly with
  | loop => exact wf.workLoop
  | chain => exact wf
  | single take =>
    obtain ⟨wf', hunder⟩ := wf.take take
    exact wf'.weaveNext (by decide) hunder
  | moveOn _ take =>
    obtain ⟨wf', hunder⟩ := wf.take take
    exact wf'.weaveNext (by decide) hunder
  | share shared _ =>
    have hanchor := wf.anchor_lt shared
    split
    · exact wf.markRing.weaveShared hanchor
    · exact wf.weaveShared hanchor
  | decrease first second =>
    obtain ⟨wf₁, hmiddle⟩ := wf.take first
    obtain ⟨wf₂, hunder⟩ := wf₁.take second
    rw [← size_of_take? second] at hmiddle
    exact wf₂.weaveOver hmiddle hunder
  | magicRing => exact wf.of_sublist rfl rfl rfl rfl (List.Sublist.refl _) rfl
  | slip last first apart =>
    have hlt := wf.outline_lt _ (List.mem_of_getLast? last)
    exact wf.addEdge 0 (wf.head_lt_last last first apart) hlt
  | join hnode hother => exact wf.addJoint hnode hother
  | finishOff => exact wf.workFinish

theorem WellFormed.beginRound {g : Fabric} (wf : g.WellFormed) (length : Nat) :
    (g.beginRound length).WellFormed :=
  wf.of_sublist rfl rfl rfl rfl (List.Sublist.refl _) rfl

/-- A ring at the front of the outline is all that the end of a round takes away. -/
theorem retireRing_cases (g : Fabric) :
    g.retireRing = g ∨ g.retireRing = { g with outline := g.outline.tail } := by
  unfold retireRing
  split
  · rename_i front rest _ hout
    split
    · exact Or.inr (by rw [hout, List.tail_cons])
    · exact Or.inl rfl
  · exact Or.inl rfl

theorem WellFormed.endRound {g : Fabric} (wf : g.WellFormed) : g.endRound.WellFormed := by
  have hretire : g.retireRing.WellFormed := by
    rcases retireRing_cases g with h | h
    · rwa [h]
    · rw [h]
      exact wf.of_sublist rfl rfl rfl rfl (List.tail_sublist _) rfl
  exact hretire.of_sublist rfl rfl rfl rfl (List.Sublist.refl _) rfl

/-! ## What joining keeps -/

theorem size_join (g other : Fabric) : (g.join other).size = g.size + other.size := by
  simp [size, join]

theorem getElem?_join_left {g : Fabric} (other : Fabric) {i : Nat} (hi : i < g.size) :
    (g.join other).nodes[i]? = g.nodes[i]? :=
  Array.getElem?_append_left hi

theorem getElem?_join_right (g other : Fabric) (k : Nat) :
    (g.join other).nodes[g.size + k]? =
      other.nodes[k]?.map (Node.shift g.size g.roundsUsed) := by
  have hnodes : (g.join other).nodes =
      g.nodes ++ other.nodes.map (Node.shift g.size g.roundsUsed) := rfl
  rw [hnodes, size, Array.getElem?_append_right (Nat.le_add_right _ _), Nat.add_sub_cancel_left,
    Array.getElem?_map]

/-- A node of two fabrics beside each other is one of the first, or one of the second shifted. -/
theorem getElem?_join {g other : Fabric} {i : Nat} {node : Node}
    (h : (g.join other).nodes[i]? = some node) :
    i < g.size ∧ g.nodes[i]? = some node ∨
      ∃ k old, i = g.size + k ∧ other.nodes[k]? = some old ∧
        node = old.shift g.size g.roundsUsed := by
  by_cases hi : i < g.size
  · rw [getElem?_join_left other hi] at h
    exact Or.inl ⟨hi, h⟩
  · obtain ⟨k, rfl⟩ := Nat.exists_eq_add_of_le (Nat.le_of_not_lt hi)
    rw [getElem?_join_right] at h
    obtain ⟨old, hold, rfl⟩ := Option.map_eq_some_iff.1 h
    exact Or.inr ⟨k, old, rfl, hold, rfl⟩

theorem isStitchAt_join_left {g : Fabric} (other : Fabric) {i : Nat} (hi : i < g.size) :
    isStitchAt (g.join other).nodes i = isStitchAt g.nodes i := by
  rw [isStitchAt, getElem?_join_left other hi, isStitchAt]

theorem isStitchAt_join_right (g other : Fabric) (k : Nat) :
    isStitchAt (g.join other).nodes (g.size + k) = isStitchAt other.nodes k := by
  rw [isStitchAt, getElem?_join_right, Option.any_map, isStitchAt]
  rfl

/-- The first node is no stitch. -/
theorem Linked.isStitchAt_zero {nodes : Array Node} (linked : Linked nodes) :
    isStitchAt nodes 0 = false := by
  cases hzero : nodes[0]? with
  | none => rw [isStitchAt, hzero, Option.any_none]
  | some node =>
    rw [isStitchAt_of_getElem? hzero, linked.first_isRing hzero]
    rfl

theorem Linked.join {g other : Fabric} (linked : Linked g.nodes)
    (linkedOther : Linked other.nodes) : Linked (g.join other).nodes := by
  constructor
  case id_eq =>
    intro i node hnode
    rcases getElem?_join hnode with ⟨-, hold⟩ | ⟨k, old, rfl, hold, rfl⟩
    · exact linked.id_eq hold
    · simp only [Node.shift, linkedOther.id_eq hold]
      omega
  case first_isRing =>
    intro node hnode
    rcases getElem?_join hnode with ⟨-, hold⟩ | ⟨k, old, hzero, hold, rfl⟩
    · exact linked.first_isRing hold
    · obtain rfl : k = 0 := by omega
      have hring : old.isRing = true := linkedOther.first_isRing hold
      exact hring
  case ring =>
    intro i node hnode hring
    rcases getElem?_join hnode with ⟨-, hold⟩ | ⟨k, old, rfl, hold, rfl⟩
    · exact linked.ring hold hring
    · obtain ⟨h₁, h₂, h₃⟩ := linkedOther.ring hold hring
      simp only [Node.shift, h₁, h₂, h₃]
      omega
  case stitch =>
    intro i node hnode hring
    rcases getElem?_join hnode with ⟨-, hold⟩ | ⟨k, old, rfl, hold, rfl⟩
    · exact linked.stitch hold hring
    · obtain ⟨h₁, h₂⟩ := linkedOther.stitch hold hring
      simp only [Node.shift]
      omega
  case next_eq =>
    intro i node hnode
    rcases getElem?_join hnode with ⟨hi, hold⟩ | ⟨k, old, rfl, hold, rfl⟩
    · rw [isStitchAt_join_left other hi, linked.next_eq hold]
      by_cases hnewest : i + 1 < g.size
      · rw [isStitchAt_join_left other hnewest]
      · -- The node after the newest of the first fabric is the ring that starts the second.
        have hright : i + 1 = g.size + 0 := by omega
        rw [hright, isStitchAt_join_right, linkedOther.isStitchAt_zero,
          isStitchAt_of_size_le (Nat.le_add_right g.size 0)]
    · rw [isStitchAt_join_right, Nat.add_assoc, isStitchAt_join_right]
      simp only [Node.shift, linkedOther.next_eq hold]
      split <;> omega

theorem WellFormed.join {g other : Fabric} (wf : g.WellFormed) (wfOther : other.WellFormed) :
    (g.join other).WellFormed := by
  have hsize := size_join g other
  constructor
  case linked => exact wf.linked.join wfOther.linked
  case held =>
    intro i node hnode hring
    rw [Fabric.join, Array.mem_append]
    rcases getElem?_join hnode with ⟨-, hold⟩ | ⟨k, old, rfl, hold, rfl⟩
    · exact Or.inl (wf.held hold hring)
    · have hpos : 0 < k := Nat.zero_lt_of_lt (wfOther.linked.stitch hold hring).2
      refine Or.inr (Array.mem_map.2 ⟨_, wfOther.held hold hring, ?_⟩)
      simp only [Edge.shift, Edge.mk.injEq, and_true]
      omega
  case outline_ascending =>
    rw [Fabric.join, List.pairwise_append, List.pairwise_map]
    refine ⟨wf.outline_ascending, ?_, ?_⟩
    · exact wfOther.outline_ascending.imp fun h => Nat.add_lt_add_right h _
    · intro id hid shifted hshifted
      obtain ⟨old, -, rfl⟩ := List.mem_map.1 hshifted
      exact Nat.lt_of_lt_of_le (wf.outline_lt id hid) (Nat.le_add_left _ _)
  case outline_lt =>
    rw [hsize, Fabric.join, List.forall_mem_append, List.forall_mem_map]
    refine ⟨fun id hid => Nat.lt_add_right _ (wf.outline_lt id hid), fun id hid => ?_⟩
    have hlt := wfOther.outline_lt id hid
    omega
  case edge_lt =>
    rw [hsize, Fabric.join, Array.forall_mem_append, Array.forall_mem_map]
    refine ⟨fun edge hmem => ?_, fun edge hmem => ?_⟩
    · have hlt := wf.edge_lt edge hmem
      omega
    · have hlt := wfOther.edge_lt edge hmem
      simp only [Edge.shift]
      omega
  case joint_lt =>
    rw [hsize, Fabric.join, Array.forall_mem_append, Array.forall_mem_map]
    refine ⟨fun joint hmem => ?_, fun joint hmem => ?_⟩
    · have hlt := wf.joint_lt joint hmem
      omega
    · have hlt := wfOther.joint_lt joint hmem
      simp only [Joint.shift]
      omega
  case face_lt =>
    rw [hsize, Fabric.join, Array.forall_mem_append, Array.forall_mem_map]
    refine ⟨fun face hmem => ?_, fun face hmem => ?_⟩
    · have hlt := wf.face_lt face hmem
      omega
    · have hlt := wfOther.face_lt face hmem
      simp only [Face.shift]
      omega
  case anchor_lt =>
    intro id hanchor
    rw [hsize]
    exact Nat.lt_add_right _ (wf.anchor_lt hanchor)

theorem kept_wellFormed : Kept WellFormed where
  apply := WellFormed.apply
  beginRound length wf := wf.beginRound length
  endRound := WellFormed.endRound

/-! ## Reachable fabrics -/

theorem Reachable.wellFormed {g : Fabric} (reach : g.Reachable) : g.WellFormed :=
  reach.of_kept kept_wellFormed .empty .join

/-- The nodes are numbered in their order. -/
theorem WellFormed.map_id_nodes {g : Fabric} (wf : g.WellFormed) :
    g.nodes.toList.map Node.id = List.range g.size := by
  refine List.ext_getElem? fun i => ?_
  rw [List.getElem?_map, Array.getElem?_toList]
  cases hnode : g.nodes[i]? with
  | none => simp [size, Array.getElem?_eq_none_iff.1 hnode]
  | some node =>
    rw [List.getElem?_range (lt_size_of_node? hnode)]
    simp [wf.linked.id_eq hnode]

theorem isRing_eq_true_iff {node : Node} : node.isRing = true ↔ node.stitch = .loop := by
  simp [Node.isRing]

theorem isRing_eq_false_iff {node : Node} : node.isRing = false ↔ node.stitch ≠ .loop := by
  simp [Node.isRing]

/-- A node leads to the one made after it exactly if both are stitches, and else to itself. -/
theorem WellFormed.next_iff {g : Fabric} (wf : g.WellFormed) {i : Nat} {node : Node}
    (hnode : g.node? i = some node) :
    (node.next = i + 1 ↔ node.stitch ≠ .loop ∧
      ∃ follower, g.node? (i + 1) = some follower ∧ follower.stitch ≠ .loop) ∧
    (node.next ≠ i + 1 → node.next = i) := by
  have hnext := wf.linked.next_eq hnode
  rw [isStitchAt_of_getElem? hnode] at hnext
  have hfollower : isStitchAt g.nodes (i + 1) = true ↔
      ∃ follower, g.node? (i + 1) = some follower ∧ follower.stitch ≠ .loop := by
    simp only [isStitchAt, Option.any_eq_true, Bool.not_eq_true', isRing_eq_false_iff, node?]
  rw [← hfollower, ← isRing_eq_false_iff]
  cases hring : node.isRing <;> cases hstitch : isStitchAt g.nodes (i + 1) <;>
    simp [hring, hstitch] at hnext ⊢ <;> omega

/-- **Every reachable fabric is sound.**  Nodes are numbered in the order of making.  A ring is
linked to itself; any other node comes after the first, is linked and held to the one made before
it, is worked into an older node, and leads on exactly to a stitch that follows it.  Live stitches
ascend, edges point backwards, and joints, triangles and the anchor stay within the nodes. -/
theorem sound_of_reachable {g : Fabric} (reach : g.Reachable) :
    (∀ i node, g.node? i = some node →
      node.id = i ∧
      (i = 0 → node.stitch = .loop) ∧
      (node.stitch = .loop → node.last = i ∧ node.under = i ∧ node.next = i) ∧
      (node.stitch ≠ .loop → 0 < i ∧ node.last = i - 1 ∧ node.under < i ∧
        (⟨i, i - 1, 1⟩ : Edge) ∈ g.edges) ∧
      (node.next = i + 1 ↔ node.stitch ≠ .loop ∧
        ∃ follower, g.node? (i + 1) = some follower ∧ follower.stitch ≠ .loop) ∧
      (node.next ≠ i + 1 → node.next = i)) ∧
    (g.outline.Pairwise (· < ·) ∧ g.outline.Nodup ∧ ∀ id ∈ g.outline, id < g.size) ∧
    (∀ edge ∈ g.edges, edge.target < edge.source ∧ edge.source < g.size) ∧
    (∀ joint ∈ g.joints,
      joint.source ≠ joint.target ∧ joint.source < g.size ∧ joint.target < g.size) ∧
    (∀ face ∈ g.faces, (face.a ≠ face.b ∧ face.a ≠ face.c ∧ face.b ≠ face.c) ∧
      face.a < g.size ∧ face.b < g.size ∧ face.c < g.size) ∧
    (∀ id, g.cursor.anchor? = some id → id < g.size) := by
  have wf := reach.wellFormed
  refine ⟨?_, ⟨wf.outline_ascending, ?_, wf.outline_lt⟩, wf.edge_lt, wf.joint_lt, wf.face_lt,
    fun id => wf.anchor_lt⟩
  · intro i node hnode
    refine ⟨wf.linked.id_eq hnode, ?_, ?_, ?_, wf.next_iff hnode⟩
    · rintro rfl
      exact isRing_eq_true_iff.1 (wf.linked.first_isRing hnode)
    · exact fun hloop => wf.linked.ring hnode (isRing_eq_true_iff.2 hloop)
    · intro hstitch
      have hring := isRing_eq_false_iff.2 hstitch
      obtain ⟨hlast, hunder⟩ := wf.linked.stitch hnode hring
      exact ⟨Nat.zero_lt_of_lt hunder, by omega, hunder, wf.held hnode hring⟩
  · exact wf.outline_ascending.imp fun h => Nat.ne_of_lt h

/-- Two discs beside each other: eight nodes, and no edge from one disc to the other. -/
theorem sound_of_reachable_discs :
    ∃ g : Fabric, g.Reachable ∧ g.size = 8 ∧
      ∀ edge ∈ g.edges, edge.target < edge.source ∧ edge.source < 8 := by
  have hdisc := Reachable.append ⟨[[.loop], [.single, .increase, .increase]]⟩ .empty
  have hsound := sound_of_reachable (hdisc.join hdisc)
  refine ⟨_, hdisc.join hdisc, by decide +kernel, fun edge hedge => ?_⟩
  obtain ⟨hback, hlt⟩ := hsound.2.2.1 edge hedge
  exact ⟨hback, Nat.lt_of_lt_of_eq hlt (by decide +kernel)⟩

end Fabric

end Crochet
