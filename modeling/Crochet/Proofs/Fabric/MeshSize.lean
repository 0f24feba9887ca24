import Crochet.Proofs.Fabric.Consistency
import Crochet.Proofs.Fabric.WellFormed
import Mathlib.Algebra.BigOperators.Intervals

/-!
# The size of a mesh

A stitch is woven along a path of older nodes: from the newest one to the anchor, and from there on
over the live stitches that it takes up.  It is held to each node of the path, and the triangle over
each step of the path is filled.  A stitch that takes up `n` live stitches therefore adds `n + 2`
edges and `n + 1` triangles, if no two neighbours on the path are the same node.

* `edges_of_apply`, `edges_of_applyAll`: the edges are always that many.
* `Ahead.apply`, `Ahead.applyAll`: so are the triangles where the anchor lies below all the live
  stitches that are taken up, as it does in any round that works off the round below
  (`Laid.workRound`).
* `Ringed.workRound`: the first stitch into a ring fills no triangle, for its whole path is the
  ring; all others of its round fill one each.
* `mesh_of_isConsistent`: nodes, edges and triangles of a consistent pattern, and the joints that
  closing it adds.
-/

namespace Crochet

namespace Fabric

variable {g h : Fabric} {i : Instruction} {instructions : List Instruction} {anchor start n : Nat}

/-! ## Edges and triangles of one stitch -/

theorem length_stitchEdges {id : Nat} {ends : List Nat} (hends : ∀ e ∈ ends, e < id) :
    (stitchEdges id ends).length = ends.length := by
  rw [stitchEdges_of_lt hends, List.length_map]

theorem length_stitchFaces {id : Nat} {corners : List (Nat × Nat)}
    (hcorners : ∀ c ∈ corners, c.1 < id ∧ c.2 < id ∧ c.1 ≠ c.2) :
    (stitchFaces id corners).length = corners.length := by
  have hall : corners.filter (fun c => id ≠ c.1 ∧ id ≠ c.2 ∧ c.1 ≠ c.2) = corners := by
    rw [List.filter_eq_self]
    intro c hc
    obtain ⟨hfirst, hsecond, hapart⟩ := hcorners c hc
    simpa using ⟨Nat.ne_of_gt hfirst, Nat.ne_of_gt hsecond, hapart⟩
  rw [stitchFaces, hall, List.length_map]

section

variable (stitch : Stitch) (under : Nat) {ends : List Nat} {corners : List (Nat × Nat)}

theorem size_edges_weave (hends : ∀ e ∈ ends, e < g.size) :
    (g.weave stitch under ends corners).edges.size = g.edges.size + ends.length := by
  simp [weave_eq, length_stitchEdges hends]

theorem size_faces_weave (hcorners : ∀ c ∈ corners, c.1 < g.size ∧ c.2 < g.size ∧ c.1 ≠ c.2) :
    (g.weave stitch under ends corners).faces.size = g.faces.size + corners.length := by
  simp [weave_eq, length_stitchFaces hcorners]

end

/-- A plain stitch adds two edges, and one for each live stitch that it takes up. -/
theorem edges_of_apply (wf : g.WellFormed) (plain : i.isPlain = true)
    (happly : g.apply i = .ok h) : h.edges.size = g.edges.size + 2 + g.need i := by
  have hnext : ∀ {taken : Fabric} {under : Nat} (stitch : Stitch),
      g.take? = some (under, taken) →
        (taken.weaveNext stitch under).edges.size = g.edges.size + 3 := by
    intro taken under stitch take
    obtain ⟨wf', hunder⟩ := wf.take take
    have hnewest := newest_lt (Nat.zero_lt_of_lt hunder)
    rw [weaveNext, size_edges_weave, (edges_of_take? take).1]
    · rfl
    · simp [hnewest, hunder, wf'.anchor_getD_lt hunder]
  cases works_of_apply happly with
  | single take => rw [hnext .single take, need_single]
  | moveOn moves take =>
    rw [hnext .increase take, need, if_pos moves]
    rfl
  | share shared fresh =>
    have hanchor := wf.anchor_lt shared
    have hnewest := newest_lt (Nat.zero_lt_of_lt hanchor)
    rw [weaveShared, need_of_shared shared fresh]
    split
    · exact size_edges_weave _ _ (by simpa using ⟨hnewest, hanchor⟩)
    · exact size_edges_weave _ _ (by simpa using ⟨hnewest, hanchor⟩)
  | decrease first second =>
    obtain ⟨wf₁, hmiddle⟩ := wf.take first
    obtain ⟨wf₂, hunder⟩ := wf₁.take second
    rw [← size_of_take? second] at hmiddle
    have hnewest := newest_lt (Nat.zero_lt_of_lt hunder)
    rw [weaveOver, size_edges_weave, (edges_of_take? second).1, (edges_of_take? first).1,
      need_decrease]
    · rfl
    · simp [hnewest, hmiddle, hunder, wf₂.anchor_getD_lt hmiddle]
  | loop | chain | magicRing | slip | join | finishOff => simp [Instruction.isPlain] at plain

theorem edges_of_applyAll (wf : g.WellFormed) (plain : ∀ i ∈ instructions, i.isPlain = true)
    (hall : g.applyAll instructions = .ok h) :
    h.edges.size = g.edges.size + 2 * instructions.length + g.totalNeed instructions := by
  induction instructions generalizing g with
  | nil =>
    obtain rfl := Except.ok.inj hall
    rfl
  | cons i rest ih =>
    have hplain := plain i List.mem_cons_self
    obtain ⟨middle, happly, hrest⟩ := exists_of_applyAll_cons hall
    have hedges := edges_of_apply wf hplain happly
    obtain ⟨-, -, hstays⟩ := counts_of_apply hplain happly
    have ih := ih (wf.apply happly) (fun j hj => plain j (List.mem_cons_of_mem i hj)) hrest
    rw [totalNeed_of_not_movesOn hstays] at ih
    rw [totalNeed, List.length_cons]
    omega

/-! ## Working off the round below -/

/-- The anchor lies below the next `n` live stitches, which are stitches of the round below: there
is no ring among them, and they were made before `start`, where the round in hand starts. -/
structure Ahead (g : Fabric) (anchor start n : Nat) : Prop where
  wellFormed : g.WellFormed
  ready : g.Ready n
  start_le : start ≤ g.size
  anchored : g.cursor.anchor? = some anchor
  anchor_lt_start : anchor < start
  anchor_lt_newest : anchor < g.newest
  beyond : ∀ id ∈ g.outline.take n, anchor < id ∧ id < start

theorem Ahead.anchor_lt (ahead : g.Ahead anchor start n) : anchor < g.size :=
  Nat.lt_of_lt_of_le ahead.anchor_lt_start ahead.start_le

theorem Ahead.newest_lt (ahead : g.Ahead anchor start n) : g.newest < g.size :=
  Fabric.newest_lt (Nat.zero_lt_of_lt ahead.anchor_lt)

theorem Ahead.markRing (ahead : g.Ahead anchor start n) : g.markRing.Ahead anchor start n where
  wellFormed := ahead.wellFormed.markRing
  ready := ⟨ahead.ready.outline_lt, ahead.ready.le_length, ahead.ready.not_ring⟩
  start_le := ahead.start_le
  anchored := ahead.anchored
  anchor_lt_start := ahead.anchor_lt_start
  anchor_lt_newest := ahead.anchor_lt_newest
  beyond := ahead.beyond

/-- The stitch that is taken comes after the anchor, and before all the live ones that are left. -/
theorem Ahead.take {front : Nat} (ahead : g.Ahead anchor start (n + 1))
    (htake : g.take? = some (front, h)) :
    h.Ahead anchor start n ∧ anchor < front ∧ front < start ∧ ∀ id ∈ h.outline, front < id := by
  obtain ⟨hhead, hcases⟩ := take?_eq_some htake
  obtain ⟨rest, hout⟩ := List.head?_eq_some_iff.1 hhead
  have hfront : front ∈ g.outline.take (n + 1) := by simp [hout]
  have hstitch := ahead.ready.not_ring front hfront
  have hfront' := ahead.beyond front hfront
  have hsorted := ahead.wellFormed.outline_ascending
  have hlength := ahead.ready.le_length
  rw [hout, List.length_cons] at hlength
  rw [hout, List.pairwise_cons] at hsorted
  rcases hcases with ⟨hring, -⟩ | ⟨-, rfl⟩
  · exact absurd (hring.symm.trans hstitch) (by decide)
  · have htail : g.takeFront.outline = rest := by simp [takeFront, hout]
    have hmem : ∀ id ∈ rest.take n, id ∈ g.outline.take (n + 1) := by
      intro id hid
      rw [hout, List.take_succ_cons]
      exact List.mem_cons_of_mem front hid
    refine ⟨?_, hfront'.1, hfront'.2, ?_⟩
    · constructor
      case wellFormed => exact (ahead.wellFormed.take htake).1
      case ready =>
        refine ⟨?_, ?_, ?_⟩
        · exact (ahead.wellFormed.take htake).1.outline_lt
        · rw [htail]
          omega
        · rw [htail]
          exact fun id hid => ahead.ready.not_ring id (hmem id hid)
      case start_le => exact ahead.start_le
      case anchored => exact ahead.anchored
      case anchor_lt_start => exact ahead.anchor_lt_start
      case anchor_lt_newest => exact ahead.anchor_lt_newest
      case beyond =>
        rw [htail]
        exact fun id hid => ahead.beyond id (hmem id hid)
    · rw [htail]
      exact hsorted.1

/-- A stitch into a node below the live stitches that are still to come leaves them ahead. -/
theorem Ahead.weave (ahead : g.Ahead anchor start n) {stitch : Stitch} {under : Nat}
    {ends : List Nat} {corners : List (Nat × Nat)}
    (wf : (g.weave stitch under ends corners).WellFormed) (hunder : under < start)
    (hbeyond : ∀ id ∈ g.outline.take n, under < id) :
    (g.weave stitch under ends corners).Ahead under start n := by
  have hout : (g.weave stitch under ends corners).outline.take n = g.outline.take n := by
    rw [outline_weave, List.take_append_of_le_length ahead.ready.le_length]
  have hstart := ahead.start_le
  have hlength := ahead.ready.le_length
  constructor
  case wellFormed => exact wf
  case ready =>
    refine ⟨wf.outline_lt, ?_, ?_⟩
    · rw [outline_weave, List.length_append]
      omega
    · rw [hout]
      intro id hid
      have hold := ahead.ready.outline_lt id (List.mem_of_mem_take hid)
      rw [isRing_weave, if_neg (Nat.ne_of_lt hold)]
      exact ahead.ready.not_ring id hid
  case start_le =>
    rw [size_weave]
    omega
  case anchored => rw [cursor_weave]
  case anchor_lt_start => exact hunder
  case anchor_lt_newest =>
    rw [newest, size_weave]
    omega
  case beyond =>
    rw [hout]
    exact fun id hid => ⟨hbeyond id hid, (ahead.beyond id hid).2⟩

/-- A stitch into the next live one, with that one in hand. -/
theorem Ahead.weaveNext (ahead : g.Ahead anchor start n) (stitch : Stitch) {under : Nat}
    (hstitch : stitch ≠ .loop) (habove : anchor < under) (hunder : under < start)
    (hbeyond : ∀ id ∈ g.outline, under < id) :
    (g.weaveNext stitch under).faces.size = g.faces.size + 2 ∧
      (g.weaveNext stitch under).Ahead under start n := by
  have hsize := Nat.lt_of_lt_of_le hunder ahead.start_le
  have hanchor := ahead.anchor_lt
  have hnewest := ahead.newest_lt
  have hapart := ahead.anchor_lt_newest
  have hfilled : ∀ c ∈ [(g.newest, anchor), (anchor, under)],
      c.1 < g.size ∧ c.2 < g.size ∧ c.1 ≠ c.2 := by
    simp
    omega
  have wf := ahead.wellFormed.weaveNext hstitch hsize
  simp only [Fabric.weaveNext, ahead.anchored, Option.getD_some] at wf ⊢
  exact ⟨size_faces_weave _ _ hfilled,
    ahead.weave wf hunder fun id hid => hbeyond id (List.mem_of_mem_take hid)⟩

theorem Ahead.weaveShared (ahead : g.Ahead anchor start n) :
    (g.weaveShared anchor).faces.size = g.faces.size + 1 ∧
      (g.weaveShared anchor).Ahead anchor start n := by
  have hanchor := ahead.anchor_lt
  have hnewest := ahead.newest_lt
  have hapart := ahead.anchor_lt_newest
  have hfilled : ∀ c ∈ [(g.newest, anchor)], c.1 < g.size ∧ c.2 < g.size ∧ c.1 ≠ c.2 := by
    simp
    omega
  exact ⟨size_faces_weave _ _ hfilled,
    ahead.weave (ahead.wellFormed.weaveShared hanchor) ahead.anchor_lt_start
      fun id hid => (ahead.beyond id hid).1⟩

theorem Ahead.weaveOver (ahead : g.Ahead anchor start n) {middle under : Nat}
    (habove : anchor < middle) (habove' : middle < under) (hunder : under < start)
    (hbeyond : ∀ id ∈ g.outline, under < id) :
    (g.weaveOver middle under).faces.size = g.faces.size + 3 ∧
      (g.weaveOver middle under).Ahead under start n := by
  have hsize := Nat.lt_of_lt_of_le hunder ahead.start_le
  have hanchor := ahead.anchor_lt
  have hnewest := ahead.newest_lt
  have hapart := ahead.anchor_lt_newest
  have hfilled : ∀ c ∈ [(g.newest, anchor), (anchor, middle), (middle, under)],
      c.1 < g.size ∧ c.2 < g.size ∧ c.1 ≠ c.2 := by
    simp
    omega
  have wf := ahead.wellFormed.weaveOver (Nat.lt_trans habove' hsize) hsize
  simp only [Fabric.weaveOver, ahead.anchored, Option.getD_some] at wf ⊢
  exact ⟨size_faces_weave _ _ hfilled,
    ahead.weave wf hunder fun id hid => hbeyond id (List.mem_of_mem_take hid)⟩

/-- A plain stitch in a round that works off the round below fills a triangle, and one for each live
stitch that it takes up. -/
theorem Ahead.apply (ahead : g.Ahead anchor start (g.need i + n)) (plain : i.isPlain = true)
    (happly : g.apply i = .ok h) :
    h.faces.size = g.faces.size + 1 + g.need i ∧ ∃ anchor', h.Ahead anchor' start n := by
  cases works_of_apply happly with
  | single take =>
    rw [need_single, Nat.add_comm] at ahead
    obtain ⟨ahead', habove, hunder, hbeyond⟩ := ahead.take take
    obtain ⟨hfaces, hnext⟩ := ahead'.weaveNext .single (by decide) habove hunder hbeyond
    rw [need_single, hfaces, (Taken.of_take? take).faces]
    exact ⟨rfl, _, hnext⟩
  | moveOn moves take =>
    have hneed : g.need .increase = 1 := if_pos moves
    rw [hneed, Nat.add_comm] at ahead
    obtain ⟨ahead', habove, hunder, hbeyond⟩ := ahead.take take
    obtain ⟨hfaces, hnext⟩ := ahead'.weaveNext .increase (by decide) habove hunder hbeyond
    rw [hneed, hfaces, (Taken.of_take? take).faces]
    exact ⟨rfl, _, hnext⟩
  | share shared fresh =>
    have hneed := need_of_shared shared fresh
    obtain rfl := Option.some.inj (shared.symm.trans ahead.anchored)
    rw [hneed, Nat.zero_add] at ahead
    rw [hneed]
    split
    · obtain ⟨hfaces, hnext⟩ := ahead.markRing.weaveShared
      exact ⟨hfaces, _, hnext⟩
    · obtain ⟨hfaces, hnext⟩ := ahead.weaveShared
      exact ⟨hfaces, _, hnext⟩
  | decrease first second =>
    rw [need_decrease, Nat.add_comm] at ahead
    obtain ⟨ahead₁, habove, -, hbeyond⟩ := ahead.take first
    obtain ⟨ahead₂, -, hunder, hbeyond'⟩ := ahead₁.take second
    have hmem := List.mem_of_head? (take?_eq_some second).1
    obtain ⟨hfaces, hover⟩ := ahead₂.weaveOver habove (hbeyond _ hmem) hunder hbeyond'
    rw [need_decrease, hfaces, (Taken.of_take? second).faces, (Taken.of_take? first).faces]
    exact ⟨rfl, _, hover⟩
  | loop | chain | magicRing | slip | join | finishOff => simp [Instruction.isPlain] at plain

theorem Ahead.applyAll (ahead : g.Ahead anchor start (g.totalNeed instructions))
    (plain : ∀ i ∈ instructions, i.isPlain = true) (hall : g.applyAll instructions = .ok h) :
    h.faces.size = g.faces.size + instructions.length + g.totalNeed instructions ∧
      ∃ anchor', h.Ahead anchor' start 0 := by
  induction instructions generalizing g anchor with
  | nil =>
    obtain rfl := Except.ok.inj hall
    exact ⟨rfl, _, ahead⟩
  | cons i rest ih =>
    have hplain := plain i List.mem_cons_self
    obtain ⟨middle, happly, hrest⟩ := exists_of_applyAll_cons hall
    obtain ⟨-, -, hstays⟩ := counts_of_apply hplain happly
    obtain ⟨hfaces, anchor', ahead'⟩ := ahead.apply hplain happly
    rw [← totalNeed_of_not_movesOn hstays] at ahead'
    obtain ⟨hfaces', hend⟩ := ih ahead' (fun j hj => plain j (List.mem_cons_of_mem i hj)) hrest
    rw [totalNeed_of_not_movesOn hstays] at hfaces'
    refine ⟨?_, hend⟩
    rw [totalNeed, List.length_cons]
    omega

/-! ## Rounds -/

theorem edges_endRound (g : Fabric) :
    g.endRound.edges = g.edges ∧ g.endRound.joints = g.joints ∧ g.endRound.faces = g.faces ∧
      g.endRound.cursor.anchor? = g.cursor.anchor? := by
  have hretire : g.retireRing.edges = g.edges ∧ g.retireRing.joints = g.joints ∧
      g.retireRing.faces = g.faces ∧ g.retireRing.cursor.anchor? = g.cursor.anchor? := by
    rcases retireRing_cases g with hkept | hgone
    · rw [hkept]
      exact ⟨rfl, rfl, rfl, rfl⟩
    · rw [hgone]
      exact ⟨rfl, rfl, rfl, rfl⟩
  exact hretire

/-- A round lies there to be worked off: its stitches are all that is live, and the anchor is older
than all of them. -/
structure Laid (g : Fabric) (start count : Nat) : Prop where
  wellFormed : g.WellFormed
  live : g.OnlyLive start count
  anchored : ∃ anchor, g.cursor.anchor? = some anchor ∧ anchor < start

theorem one_le_demand {round : Round} (hne : round ≠ []) (plain : ∀ i ∈ round, i.isPlain = true) :
    1 ≤ Round.demand round := by
  obtain ⟨i, rest, rfl⟩ := List.exists_cons_of_ne_nil hne
  have hfirst := one_le_firstNeeds (plain i List.mem_cons_self)
  rw [Round.demand]
  omega

/-- At the start of a round the stitches of the round below are ahead. -/
theorem Laid.ahead {count : Nat} (laid : g.Laid start count) (hpos : 1 ≤ count) (length : Nat) :
    ∃ anchor, (g.beginRound length).Ahead anchor g.size count := by
  obtain ⟨wf, ⟨hout, hsize, hring⟩, anchor, hanchor, hlt⟩ := laid
  refine ⟨anchor, ?_⟩
  constructor
  case wellFormed => exact wf.beginRound length
  case ready =>
    refine ⟨wf.outline_lt, ?_, fun id hid => hring id (List.mem_of_mem_take hid)⟩
    rw [outline_beginRound, hout, List.length_range']
  case start_le => exact Nat.le_refl _
  case anchored => exact hanchor
  case anchor_lt_start => omega
  case anchor_lt_newest =>
    rw [newest, size_beginRound]
    omega
  case beyond =>
    intro id hid
    have hid' : id ∈ g.outline := List.mem_of_mem_take hid
    have hlow := wf.outline_lt id hid'
    rw [hout, List.mem_range'_1] at hid'
    omega

/-- The band between two rounds: its triangles are as many as the stitches of both rounds. -/
theorem Laid.workRound (index : Nat) {round : Round} (hne : round ≠ [])
    (plain : ∀ i ∈ round, i.isPlain = true) (laid : g.Laid start (Round.demand round)) :
    ∃ h, g.workRound index round = .ok h ∧ h.Laid g.size round.length ∧
      h.edges.size = g.edges.size + (2 * round.length + Round.demand round) ∧
      h.faces.size = g.faces.size + (round.length + Round.demand round) := by
  obtain ⟨_, hwork, hlive⟩ := exists_workRound index plain laid.live
  obtain ⟨k, hall, rfl⟩ := exists_of_workRound hwork
  have hneed := totalNeed_of_movesOn (movesOn_beginRound g round.length) round
  obtain ⟨anchor, ahead⟩ := laid.ahead (one_le_demand hne plain) round.length
  rw [← hneed] at ahead
  obtain ⟨hfaces, anchor', ahead'⟩ := ahead.applyAll plain hall
  have hedges := edges_of_applyAll ahead.wellFormed plain hall
  obtain ⟨hedges', -, hfaces', hanchor⟩ := edges_endRound k
  rw [hneed] at hedges hfaces
  refine ⟨k.endRound, hwork, ?_, ?_, ?_⟩
  · exact ⟨ahead'.wellFormed.endRound, hlive, anchor', hanchor.trans ahead'.anchored,
      ahead'.anchor_lt_start⟩
  · rw [hedges', hedges, Nat.add_assoc]
    rfl
  · rw [hfaces', hfaces, Nat.add_assoc]
    rfl

/-! ## The first round around a ring -/

/-- A fabric that is one fresh ring and what came before it. -/
structure Ringed (g : Fabric) (ring : Nat) : Prop where
  wellFormed : g.WellFormed
  size : g.size = ring + 1
  outline : g.outline = [ring]
  isRing : g.isRing ring = true
  anchored : g.cursor.anchor? = some ring

theorem Ringed.beginRound {ring : Nat} (ringed : g.Ringed ring) (length : Nat) :
    (g.beginRound length).Ringed ring :=
  { ringed with wellFormed := ringed.wellFormed.beginRound length }

/-- The whole path of a first stitch into a ring is the ring: it fills no triangle. -/
theorem Ringed.weaveNext {ring : Nat} (ringed : g.Ringed ring) {stitch : Stitch}
    (hstitch : stitch ≠ .loop) :
    (g.takeRing.weaveNext stitch ring).faces = g.faces ∧
      (g.takeRing.weaveNext stitch ring).Ahead ring (ring + 1) 0 := by
  have hsize : g.takeRing.size = ring + 1 := ringed.size
  have hnewest : g.takeRing.newest = ring := by
    rw [newest, hsize, Nat.add_sub_cancel]
  have hanchor : g.takeRing.cursor.anchor? = some ring := ringed.anchored
  have wf : (g.takeRing.weaveNext stitch ring).WellFormed := by
    obtain ⟨wf', hlt⟩ := ringed.wellFormed.take (take?_of_ring ringed.outline ringed.isRing)
    exact wf'.weaveNext hstitch hlt
  constructor
  · simp [Fabric.weaveNext, weave_eq, stitchFaces, hnewest, hanchor]
    rfl
  · constructor
    case wellFormed => exact wf
    case ready => exact ⟨wf.outline_lt, Nat.zero_le _, by simp⟩
    case start_le =>
      rw [Fabric.weaveNext, size_weave, hsize]
      exact Nat.le_succ _
    case anchored => rw [Fabric.weaveNext, cursor_weave]
    case anchor_lt_start => exact Nat.lt_succ_self ring
    case anchor_lt_newest =>
      rw [Fabric.weaveNext, newest, size_weave, hsize]
      exact Nat.lt_succ_self ring
    case beyond => simp

theorem Ringed.apply {ring : Nat} (ringed : g.Ringed ring) (moves : g.MovesOn)
    (plain : i.isPlain = true) (hneeds : Round.firstNeeds i = 1) (happly : g.apply i = .ok h) :
    h.faces = g.faces ∧ h.Ahead ring (ring + 1) 0 := by
  have htake := take?_of_ring ringed.outline ringed.isRing
  cases i with
  | single =>
    rw [Fabric.apply, workNext_of_take? .single htake] at happly
    obtain rfl := Except.ok.inj happly
    exact ringed.weaveNext (by decide)
  | increase =>
    rw [Fabric.apply, workIncrease_of_movesOn moves, workNext_of_take? .increase htake] at happly
    obtain rfl := Except.ok.inj happly
    exact ringed.weaveNext (by decide)
  | decrease =>
    simp [Round.firstNeeds, Instruction.needs?, Instruction.stitch, Stitch.needs?] at hneeds
  | loop | chain | magicRing | slip | join | finishOff => simp [Instruction.isPlain] at plain

/-- All stitches of the round around a ring but the first fill one triangle each. -/
theorem Ringed.workRound {ring : Nat} (index : Nat) {round : Round}
    (plain : ∀ i ∈ round, i.isPlain = true) (hdemand : Round.demand round = 1)
    (ringed : g.Ringed ring) :
    ∃ h, g.workRound index round = .ok h ∧ h.Laid g.size round.length ∧
      h.edges.size = g.edges.size + (2 * round.length + 1) ∧
      h.faces.size = g.faces.size + (round.length - 1) := by
  obtain ⟨_, hwork, hlive⟩ :=
    exists_workRound_of_ring index plain hdemand ringed.outline ringed.isRing
  obtain ⟨k, hall, rfl⟩ := exists_of_workRound hwork
  have moves := movesOn_beginRound g round.length
  have hedges := edges_of_applyAll (ringed.wellFormed.beginRound round.length) plain hall
  rw [totalNeed_of_movesOn moves, hdemand] at hedges
  cases round with
  | nil => simp [Round.demand] at hdemand
  | cons i rest =>
    have hplain := plain i List.mem_cons_self
    have hsum : Round.firstNeeds i + totalUptake rest = 1 := hdemand
    have hfirst := one_le_firstNeeds hplain
    obtain ⟨middle, happly, hrest⟩ := exists_of_applyAll_cons hall
    obtain ⟨-, -, hstays⟩ := counts_of_apply hplain happly
    obtain ⟨hfaces, ahead⟩ := (ringed.beginRound _).apply moves hplain (by omega) happly
    have hnone : middle.totalNeed rest = 0 := by
      rw [totalNeed_of_not_movesOn hstays]
      omega
    rw [← hnone] at ahead
    obtain ⟨hfaces', anchor', ahead'⟩ :=
      ahead.applyAll (fun j hj => plain j (List.mem_cons_of_mem i hj)) hrest
    obtain ⟨hedgesEnd, -, hfacesEnd, hanchor⟩ := edges_endRound k
    refine ⟨k.endRound, hwork, ?_, ?_, ?_⟩
    · refine ⟨ahead'.wellFormed.endRound, hlive, anchor', hanchor.trans ahead'.anchored, ?_⟩
      rw [ringed.size]
      exact ahead'.anchor_lt_start
    · rw [hedgesEnd, hedges, Nat.add_assoc]
      rfl
    · rw [hfacesEnd, hfaces', hfaces, hnone, List.length_cons, Nat.add_sub_cancel]
      rfl

/-! ## Closing -/

/-- A closing round after the rounds of a pattern. -/
theorem ofPattern_finishOff {rounds : List Round} (hwork : ofPattern ⟨rounds⟩ = .ok g) :
    ofPattern ⟨rounds ++ [[.finishOff]]⟩ = .ok (g.beginRound 1).workFinish.endRound := by
  rw [ofPattern, append] at hwork ⊢
  rw [workRounds_append, hwork]
  rfl

theorem length_endPairs (live : List Nat) : (endPairs live).length = live.length / 2 := by
  simp [endPairs]
  omega

/-- No stitch is paired with itself. -/
theorem ne_of_mem_endPairs {live : List Nat} (nodup : live.Nodup) {pair : Nat × Nat}
    (hmem : pair ∈ endPairs live) : pair.1 ≠ pair.2 := by
  obtain ⟨k, hk, rfl⟩ := List.mem_iff_getElem.1 hmem
  have hk' : k < live.length / 2 := by rwa [length_endPairs] at hk
  intro hsame
  simp only [endPairs, List.getElem_take, List.getElem_zip, List.getElem_reverse] at hsame
  have := (nodup.getElem_inj_iff).1 hsame
  omega

/-- Finishing off loses no pair. -/
theorem joints_workFinish (nodup : g.outline.Nodup) :
    g.workFinish.joints =
      g.joints ++ ((endPairs g.outline).map fun pair => (⟨pair.1, pair.2⟩ : Joint)).toArray := by
  have hall : (endPairs g.outline).filter (fun pair => pair.1 ≠ pair.2) = endPairs g.outline := by
    rw [List.filter_eq_self]
    intro pair hpair
    simpa using ne_of_mem_endPairs nodup hpair
  rw [workFinish_eq, hall]

/-- Closing a round sews its stitches together in pairs and makes nothing else. -/
theorem Laid.close {count : Nat} (laid : g.Laid start count) :
    (g.beginRound 1).workFinish.endRound.joints.size = g.joints.size + count / 2 ∧
      (g.beginRound 1).workFinish.endRound.outline = [] ∧
      (g.beginRound 1).workFinish.endRound.nodes = g.nodes ∧
      (g.beginRound 1).workFinish.endRound.edges = g.edges ∧
      (g.beginRound 1).workFinish.endRound.faces = g.faces := by
  obtain ⟨-, ⟨hout, -⟩, -⟩ := laid
  have nodup : (g.beginRound 1).outline.Nodup := by
    rw [outline_beginRound, hout]
    exact List.nodup_range'
  have hempty : (g.beginRound 1).workFinish.outline = [] := rfl
  obtain ⟨hedges, hjoints, hfaces, -⟩ := edges_endRound (g.beginRound 1).workFinish
  obtain ⟨hnodes, -⟩ := nodes_endRound (g.beginRound 1).workFinish
  have hsewn : (g.beginRound 1).workFinish.joints.size = g.joints.size + count / 2 := by
    rw [joints_workFinish nodup]
    simp [length_endPairs, beginRound, hout]
  rw [hjoints, hnodes, hedges, hfaces, hsewn, outline_endRound_of_stitch (by simp [hempty]),
    workFinish_eq]
  exact ⟨rfl, rfl, rfl, rfl, rfl⟩

/-! ## The mesh of a consistent pattern -/

end Fabric

/-- The number of stitches in a round, or zero if there is no such round. -/
def Pattern.width (p : Pattern) (k : Nat) : Nat := (p.stitchCount? k).getD 0

namespace Fabric

/-- The nodes, edges and triangles of a fabric are those of the first rounds of a pattern, up to the
`n`-th after the ring. -/
structure Meshed (g : Fabric) (p : Pattern) (n : Nat) : Prop where
  /-- Every stitch is a node. -/
  nodes : g.size = ∑ k ∈ Finset.range (n + 1), p.width k
  /-- A round has two edges for each of its stitches, and one for each of the round below. -/
  edges : g.edges.size = ∑ k ∈ Finset.Icc 1 n, (2 * p.width k + p.width (k - 1))
  /-- The band between two rounds has a triangle for each stitch of both; around the ring there is
  one for each stitch but the first. -/
  faces : g.faces.size = (p.width 1 - 1) + ∑ k ∈ Finset.Icc 2 n, (p.width k + p.width (k - 1))

section Started

variable {rounds : List Round}

theorem width_succ {k : Nat} {round : Round} (hround : rounds[k]? = some round) :
    (Pattern.startingWithLoop rounds).width (k + 1) = round.length := by
  show ((rounds[k]?).map List.length).getD 0 = _
  rw [hround]
  rfl

/-- The ring that a pattern starts with. -/
theorem exists_ringed (rounds : List Round) :
    ∃ g, afterRounds (.startingWithLoop rounds) 1 = .ok g ∧ g.Ringed 0 ∧ g.edges.size = 0 ∧
      g.faces.size = 0 := by
  have hring : afterRounds (.startingWithLoop rounds) 1 =
      .ok ((empty.beginRound 1).workLoop.endRound) := rfl
  exact ⟨_, hring, ⟨(Reachable.of_ofPattern hring).wellFormed, rfl, rfl, rfl, rfl⟩, rfl, rfl⟩

/-- Round by round, the mesh of a consistent pattern grows as it should. -/
theorem exists_meshed (nonempty : ∀ round ∈ rounds, round ≠ [])
    (plain : ∀ round ∈ rounds, ∀ i ∈ round, i.isPlain = true)
    (consistent : (Pattern.startingWithLoop rounds).isConsistent = true) {k : Nat} {round : Round}
    (hround : rounds[k]? = some round) :
    ∃ g start, afterRounds (.startingWithLoop rounds) (k + 2) = .ok g ∧
      g.Meshed (.startingWithLoop rounds) (k + 1) ∧ g.Laid start round.length := by
  induction k generalizing round with
  | zero =>
    have hplain := plain round (List.mem_of_getElem? hround)
    obtain ⟨below, hbelow, ringed, hedges, hfaces⟩ := exists_ringed rounds
    have hfirst : (Pattern.startingWithLoop rounds).rounds[0]? = some [.loop] := rfl
    have hdemand : Round.demand round = 1 :=
      demand_of_isConsistent plain nonempty consistent hfirst hround
    obtain ⟨g, hwork, laid, hedges', hfaces'⟩ := ringed.workRound 1 hplain hdemand
    refine ⟨g, below.size, (afterRounds_above hround hbelow).trans hwork, ?_, laid⟩
    have hwidth := width_succ hround
    constructor
    case nodes =>
      rw [laid.live.2.1, ringed.size, Finset.sum_range_succ, Finset.sum_range_one, hwidth]
      rfl
    case edges =>
      rw [hedges', hedges, Finset.Icc_self, Finset.sum_singleton, hwidth, Nat.zero_add]
      rfl
    case faces =>
      rw [hfaces', hfaces, hwidth, Nat.zero_add]
      rfl
  | succ k ih =>
    have hplain := plain round (List.mem_of_getElem? hround)
    have hne := nonempty round (List.mem_of_getElem? hround)
    have hlt : k < rounds.length := by
      have := (List.getElem?_eq_some_iff.1 hround).1
      omega
    have hprevious : rounds[k]? = some rounds[k] := List.getElem?_eq_getElem hlt
    obtain ⟨below, start, hbelow, meshed, laid⟩ := ih hprevious
    have hdemand : Round.demand round = rounds[k].length :=
      demand_of_isConsistent plain nonempty consistent hprevious hround
    rw [← hdemand] at laid
    obtain ⟨g, hwork, laid', hedges, hfaces⟩ := laid.workRound (k + 2) hne hplain
    refine ⟨g, below.size, (afterRounds_above hround hbelow).trans hwork, ?_, laid'⟩
    have hwidth := width_succ hround
    have hwidth' := width_succ hprevious
    constructor
    case nodes => rw [laid'.live.2.1, meshed.nodes, Finset.sum_range_succ _ (k + 2), hwidth]
    case edges =>
      have hgrown : 1 ≤ k + 1 + 1 := by omega
      rw [hedges, meshed.edges, Finset.sum_Icc_succ_top hgrown, hwidth, Nat.add_sub_cancel,
        hwidth', hdemand]
    case faces =>
      have hgrown : 2 ≤ k + 1 + 1 := by omega
      rw [hfaces, meshed.faces, Finset.sum_Icc_succ_top hgrown, hwidth, Nat.add_sub_cancel,
        hwidth', hdemand, Nat.add_assoc]

/-- **The size of the mesh of a consistent pattern.**  A pattern that starts with a ring, goes on
with rounds of plain stitches and is consistent is worked into as many nodes as it has stitches, two
edges for each stitch of a round and one for each stitch of the round below, and a triangle for each
stitch of two neighbouring rounds.  A closing round sews the stitches of the last round together in
pairs, leaves none live, and makes no node, edge or triangle. -/
theorem mesh_of_isConsistent (rounds : List Round) (hne : rounds ≠ [])
    (nonempty : ∀ round ∈ rounds, round ≠ [])
    (plain : ∀ round ∈ rounds, ∀ i ∈ round, i.isPlain = true)
    (consistent : (Pattern.startingWithLoop rounds).isConsistent = true) :
    ∃ g closed, ofPattern (.startingWithLoop rounds) = .ok g ∧
      g.Meshed (.startingWithLoop rounds) rounds.length ∧
      ofPattern (.startingWithLoop (rounds ++ [[.finishOff]])) = .ok closed ∧
      closed.joints.size =
        g.joints.size + (Pattern.startingWithLoop rounds).width rounds.length / 2 ∧
      closed.outline = [] ∧ closed.nodes = g.nodes ∧ closed.edges = g.edges ∧
      closed.faces = g.faces := by
  obtain ⟨k, hk⟩ := Nat.exists_eq_add_one_of_ne_zero (mt List.length_eq_zero_iff.1 hne)
  have hlast : rounds[k]? = some rounds[k] := List.getElem?_eq_getElem (by omega)
  obtain ⟨g, start, hwork, meshed, laid⟩ := exists_meshed nonempty plain consistent hlast
  have hlength : (Pattern.startingWithLoop rounds).rounds.length = k + 2 :=
    congrArg (· + 1) hk
  have hg : ofPattern (.startingWithLoop rounds) = .ok g := by
    rw [ofPattern_eq_afterRounds, hlength, hwork]
  rw [hk, width_succ hlast]
  exact ⟨g, _, hg, meshed, ofPattern_finishOff hg, laid.close⟩

/-- A bag: a disc of three stitches, one of each plain stitch around it, and the end. -/
theorem mesh_of_isConsistent_bag :
    ∃ g closed : Fabric, ofPattern (.startingWithLoop
        [[.increase, .increase, .increase], [.single, .increase, .decrease]]) = .ok g ∧
      g.size = 7 ∧ g.edges.size = 16 ∧ g.faces.size = 8 ∧
      ofPattern (.startingWithLoop
        [[.increase, .increase, .increase], [.single, .increase, .decrease], [.finishOff]]) =
          .ok closed ∧
      closed.joints.size = g.joints.size + 1 ∧ closed.faces.size = 8 := by
  obtain ⟨g, closed, hwork, meshed, hclosed, hjoints, -, -, -, hfaces⟩ := mesh_of_isConsistent
    [[.increase, .increase, .increase], [.single, .increase, .decrease]] (by decide) (by decide)
    (by decide) (by decide)
  have hsize : g.faces.size = 8 := meshed.faces
  exact ⟨g, closed, hwork, meshed.nodes, meshed.edges, hsize, hclosed, hjoints, hfaces ▸ hsize⟩

end Started

end Fabric

end Crochet
