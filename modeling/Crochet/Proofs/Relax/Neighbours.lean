import Crochet.Proofs.Relax.LastAnchor
import Mathlib.Data.List.Induction

/-!
# Neighbours

The stuffing pushes a stitch along the mean of the normals of its neighbours, so the rig must name
each neighbour, and once only.  The lists are made in one pass over the edges, every edge being
noted at both its ends.

* `Lists`: what the list of a node says after some edges, namely all nodes linked to it so far, each
  of them behind those that were linked before it.  `Lists.of_links` and `Lists.of_not_links` are
  what one more edge does, and `lists_foldl` is the whole pass.
* `neighbours_exact`: in a body the list of each stitch is that of the edges of its fabric.
-/

namespace Crochet

/-- The edge holds two nodes, whichever of them it starts from.  A seam is an edge as well. -/
def Edge.Links (edge : Edge) (i j : Nat) : Prop :=
  edge.source = i ∧ edge.target = j ∨ edge.source = j ∧ edge.target = i

instance (edge : Edge) (i j : Nat) : Decidable (edge.Links i j) :=
  inferInstanceAs (Decidable (_ ∨ _))

theorem Edge.links_comm {edge : Edge} {i j : Nat} : edge.Links i j ↔ edge.Links j i := Or.comm

/-- How many edges come before the first that links two nodes. -/
def Edge.firstLink (edges : List Edge) (i j : Nat) : Nat :=
  edges.findIdx fun edge => edge.Links i j

namespace Rig

/-- The neighbours of a node. -/
def neighboursAt (rig : Rig) (i : Nat) : List Nat := rig.neighbours.getD i []

/-! ## One node -/

/-- A list of the nodes that edges link to a node, in the order in which they first do. -/
structure Lists (edges : List Edge) (i : Nat) (js : List Nat) : Prop where
  mem_iff : ∀ j, j ∈ js ↔ ∃ edge ∈ edges, edge.Links i j
  ordered : js.Pairwise fun j k => Edge.firstLink edges i j < Edge.firstLink edges i k

variable {edges : List Edge} {edge : Edge} {i j : Nat} {js : List Nat}

theorem lists_nil (i : Nat) : Lists [] i [] := ⟨by simp, .nil⟩

theorem firstLink_lt_length (h : ∃ edge ∈ edges, edge.Links i j) :
    Edge.firstLink edges i j < edges.length := by
  obtain ⟨edge, hmem, hlinks⟩ := h
  exact List.findIdx_lt_length_of_exists ⟨edge, hmem, decide_eq_true hlinks⟩

/-- More edges do not change which edge was the first. -/
theorem firstLink_append (h : ∃ edge ∈ edges, edge.Links i j) (more : List Edge) :
    Edge.firstLink (edges ++ more) i j = Edge.firstLink edges i j := by
  rw [Edge.firstLink, List.findIdx_append]
  exact if_pos (firstLink_lt_length h)

theorem length_le_firstLink_append (h : ¬∃ edge ∈ edges, edge.Links i j) (more : List Edge) :
    edges.length ≤ Edge.firstLink (edges ++ more) i j := by
  rw [Edge.firstLink, List.findIdx_append, List.findIdx_eq_length_of_false]
  · simp
  · intro edge hmem
    exact decide_eq_false fun hlinks => h ⟨edge, hmem, hlinks⟩

/-- The order stays when more edges come. -/
theorem Lists.ordered_append (lists : Lists edges i js) (more : List Edge) :
    js.Pairwise fun j k =>
      Edge.firstLink (edges ++ more) i j < Edge.firstLink (edges ++ more) i k := by
  refine lists.ordered.imp_of_mem fun {j k} hj hk hlt => ?_
  rwa [firstLink_append ((lists.mem_iff j).1 hj), firstLink_append ((lists.mem_iff k).1 hk)]

/-- An edge that links a node to another puts that one at the end, unless it is listed already. -/
theorem Lists.of_links (lists : Lists edges i js) (hlinks : ∀ k, edge.Links i k ↔ k = j) :
    Lists (edges ++ [edge]) i (addNew j js) := by
  have hmore (k : Nat) : (∃ e ∈ edges ++ [edge], e.Links i k) ↔
      (∃ e ∈ edges, e.Links i k) ∨ k = j := by
    simp [or_and_right, exists_or, hlinks]
  unfold addNew
  split
  case isTrue hcontains =>
    rw [List.contains_iff_mem] at hcontains
    refine ⟨fun k => ?_, lists.ordered_append [edge]⟩
    rw [hmore, ← lists.mem_iff]
    constructor
    · exact .inl
    · rintro (hmem | rfl)
      · exact hmem
      · exact hcontains
  case isFalse hcontains =>
    rw [List.contains_iff_mem] at hcontains
    refine ⟨fun k => ?_, List.pairwise_append.2 ⟨lists.ordered_append [edge], by simp, ?_⟩⟩
    · rw [hmore, ← lists.mem_iff, List.mem_append, List.mem_singleton]
    · -- the listed ones were linked by an edge of `edges`, and the new one was not
      intro k hk l hl
      obtain rfl := List.mem_singleton.1 hl
      have hold := (lists.mem_iff k).1 hk
      rw [firstLink_append hold]
      refine Nat.lt_of_lt_of_le (firstLink_lt_length hold) (length_le_firstLink_append ?_ [edge])
      rwa [← lists.mem_iff]

/-- An edge between other nodes changes nothing. -/
theorem Lists.of_not_links (lists : Lists edges i js) (hlinks : ∀ k, ¬edge.Links i k) :
    Lists (edges ++ [edge]) i js := by
  refine ⟨fun k => ?_, lists.ordered_append [edge]⟩
  rw [lists.mem_iff]
  simp [or_and_right, exists_or, hlinks]

/-- A listed node is listed once, since no edge comes before itself. -/
theorem Lists.nodup (lists : Lists edges i js) : js.Nodup :=
  lists.ordered.imp fun hlt => ne_of_apply_ne _ (Nat.ne_of_lt hlt)

/-! ## The pass over the edges -/

/-- The list of a node after one more edge. -/
theorem lists_addNeighbours {neighbours : Array (List Nat)} (hne : edge.source ≠ edge.target)
    (lists : ∀ i js, neighbours[i]? = some js → Lists edges i js) (i : Nat) (js : List Nat)
    (h : (addNeighbours neighbours edge)[i]? = some js) : Lists (edges ++ [edge]) i js := by
  rw [addNeighbours, Array.getElem?_modify, Array.getElem?_modify] at h
  by_cases hsource : edge.source = i
  · have htarget : edge.target ≠ i := fun heq => hne (hsource.trans heq.symm)
    rw [if_neg htarget, if_pos hsource, Option.map_eq_some_iff] at h
    obtain ⟨old, hold, rfl⟩ := h
    refine (lists i old hold).of_links fun k => ?_
    simp [Edge.Links, hsource, htarget, eq_comm]
  · by_cases htarget : edge.target = i
    · rw [if_pos htarget, if_neg hsource, Option.map_eq_some_iff] at h
      obtain ⟨old, hold, rfl⟩ := h
      refine (lists i old hold).of_links fun k => ?_
      simp [Edge.Links, hsource, htarget, eq_comm]
    · rw [if_neg htarget, if_neg hsource] at h
      refine (lists i js h).of_not_links fun k => ?_
      simp [Edge.Links, hsource, htarget]

/-- **After all edges, the list of each node names the nodes that the edges link to it.** -/
theorem lists_foldl (count : Nat) {edges : List Edge}
    (hne : ∀ edge ∈ edges, edge.source ≠ edge.target) (i : Nat) (js : List Nat)
    (h : (edges.foldl addNeighbours (Array.replicate count []))[i]? = some js) :
    Lists edges i js := by
  induction edges using List.reverseRecOn generalizing i js with
  | nil =>
    rw [List.foldl_nil, Array.getElem?_replicate] at h
    split at h
    · cases h
      exact lists_nil i
    · cases h
  | append_singleton noted edge ih =>
    rw [List.foldl_append] at h
    rw [List.forall_mem_append, List.forall_mem_singleton] at hne
    exact lists_addNeighbours hne.2 (ih hne.1) i js h

theorem lists_neighboursAt {g : Fabric} (wf : g.WellFormed) (pins : Index Vec3)
    (settings : Settings) (i : Nat) :
    Lists g.edges.toList i ((ofFabric g pins settings).neighboursAt i) := by
  have hsize := size_neighboursOf g.size g.edges
  rw [neighboursAt, ofFabric, Array.getD_eq_getD_getElem?]
  cases h : (neighboursOf g.size g.edges)[i]? with
  | some js =>
    rw [neighboursOf, ← Array.foldl_toList] at h
    refine lists_foldl g.size (fun edge hmem => ?_) i js h
    exact Nat.ne_of_gt (wf.edge_lt edge (Array.mem_toList_iff.1 hmem)).1
  | none =>
    -- beyond the last stitch there is no list, and no edge leads there
    rw [Array.getElem?_eq_none_iff, hsize] at h
    have hlinks : ∀ j, ¬∃ edge ∈ g.edges.toList, edge.Links i j := by
      rintro j ⟨edge, hmem, hlinks⟩
      obtain ⟨hback, hlt⟩ := wf.edge_lt edge (Array.mem_toList_iff.1 hmem)
      rcases hlinks with ⟨hsource, -⟩ | ⟨-, htarget⟩ <;> omega
    exact ⟨fun j => by simpa using hlinks j, .nil⟩

end Rig

namespace Body

/-- **Every stitch knows the stitches that it is held to.**  The list of a stitch names those that
an edge links to it, seams included, in the order of the first such edges.  So it names none twice
and never the stitch itself, whoever is named names back, and only a ring can be without
neighbours. -/
theorem neighbours_exact {g : Fabric} (reach : g.Reachable) {anchors : List Anchor}
    {settings : Settings} {s : Body} (hstart : start g anchors settings = .ok s) :
    s.rig.neighbours.size = g.size ∧
      ∀ i, (∀ j, j ∈ s.rig.neighboursAt i ↔ ∃ edge ∈ g.edges, edge.Links i j) ∧
        (s.rig.neighboursAt i).Nodup ∧ i ∉ s.rig.neighboursAt i ∧
        (∀ j, j ∈ s.rig.neighboursAt i ↔ i ∈ s.rig.neighboursAt j) ∧
        ((s.rig.neighboursAt i).Pairwise fun j k =>
          Edge.firstLink g.edges.toList i j < Edge.firstLink g.edges.toList i k) ∧
        ∀ node, g.node? i = some node → node.stitch ≠ .loop → s.rig.neighboursAt i ≠ [] := by
  obtain ⟨-, pins, -, rfl⟩ := start_eq_ok hstart
  have wf := reach.wellFormed
  have lists := Rig.lists_neighboursAt wf pins settings
  have hmem (i j : Nat) : j ∈ (Rig.ofFabric g pins settings).neighboursAt i ↔
      ∃ edge ∈ g.edges, edge.Links i j := by
    simpa using (lists i).mem_iff j
  refine ⟨Rig.size_neighboursOf g.size g.edges, fun i =>
    ⟨hmem i, (lists i).nodup, ?itself, ?back, (lists i).ordered, ?stitch⟩⟩
  case itself =>
    intro hself
    obtain ⟨edge, hedge, hlinks⟩ := (hmem i i).1 hself
    have hback := (wf.edge_lt edge hedge).1
    rcases hlinks with ⟨hsource, htarget⟩ | ⟨hsource, htarget⟩ <;> omega
  case back =>
    intro j
    exact (hmem i j).trans (Iff.trans (by simp only [Edge.links_comm]) (hmem j i).symm)
  case stitch =>
    -- every stitch is held to the one made before it
    intro node hnode hstitch
    have hedge := wf.held hnode (Fabric.isRing_eq_false_iff.2 hstitch)
    exact List.ne_nil_of_mem ((hmem i (i - 1)).2 ⟨_, hedge, .inl ⟨rfl, rfl⟩⟩)

/-- Three edges hold the first stitch to its ring, which names it once, and a slip stitch makes
neighbours of the first stitch and the third. -/
theorem neighbours_exact_slip :
    ∃ (disc : Fabric) (s : Body), disc.Reachable ∧ start disc [] {} = .ok s ∧
      disc.edges.count ⟨1, 0, 1⟩ = 3 ∧ (s.rig.neighboursAt 0).count 1 = 1 ∧
      ⟨3, 1, 0⟩ ∈ disc.edges ∧ 3 ∈ s.rig.neighboursAt 1 ∧ 1 ∈ s.rig.neighboursAt 3 := by
  have hreach := Fabric.Reachable.append
    ⟨[[.loop], [.single, .increase, .increase], [.slip]]⟩ .empty
  generalize hdisc : Fabric.worked _ = disc at hreach
  have hcount : disc.edges.count ⟨1, 0, 1⟩ = 3 := by
    rw [← hdisc]
    decide +kernel
  have hseam : ⟨3, 1, 0⟩ ∈ disc.edges := by
    rw [← hdisc]
    decide +kernel
  obtain ⟨s, hstart⟩ : ∃ s, start disc [] {} = .ok s := exists_start rfl (List.forall_mem_nil _)
  obtain ⟨-, lists⟩ := neighbours_exact hreach hstart
  obtain ⟨hring, hnodup, -⟩ := lists 0
  obtain ⟨hfirst, -, -, hback, -⟩ := lists 1
  have hthird : 3 ∈ s.rig.neighboursAt 1 := (hfirst 3).2 ⟨_, hseam, .inr ⟨rfl, rfl⟩⟩
  have hheld : ⟨1, 0, 1⟩ ∈ disc.edges := Array.count_pos_iff.1 (by omega)
  exact ⟨disc, s, hreach, hstart, hcount,
    List.count_eq_one_of_mem hnodup ((hring 1).2 ⟨_, hheld, .inr ⟨rfl, rfl⟩⟩), hseam, hthird,
    (hback 3).1 hthird⟩

end Body

end Crochet
