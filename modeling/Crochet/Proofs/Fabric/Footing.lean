import Crochet.Proofs.Fabric.Counting
import Crochet.Proofs.Fabric.WellFormed

/-!
# Working on beside another fabric

A stitch stands on the node made before it, and on a few older nodes that are chosen by the anchor
and by the front of the outline: its `Footing`.  Putting a second fabric beside the first changes
neither the anchor nor the front of the outline, so a stitch that can be worked onto the first
fabric can be worked onto both, and finds the same footing (`exists_stand`).

The node made before it is another matter.  It is the newest of all the nodes there are, and beside
a second fabric that is the newest node of the second one.  A stitch is held to it, and takes it as
a corner of its first triangle (`apply_join`).
-/

namespace Crochet

namespace Fabric

variable {g h t other : Fabric} {i : Instruction}

/-! ## Footings -/

/-- What a stitch stands on besides the node made before it: the stitch it is worked into, the
anchor that it comes from, the nodes that hold it, and the pairs of them that make a triangle with
it. -/
structure Footing where
  under : Nat
  anchor : Nat
  ends : List Nat
  corners : List (Nat × Nat)

/-- Whether a footing consists of the first `n` nodes. -/
structure Footing.Within (f : Footing) (n : Nat) : Prop where
  under : f.under < n
  anchor : f.anchor < n
  ends : ∀ e ∈ f.ends, e < n
  corners : ∀ c ∈ f.corners, c.1 < n ∧ c.2 < n

namespace Footing

/-- The footing of a stitch into the next live one. -/
def next (anchor under : Nat) : Footing := ⟨under, anchor, [under, anchor], [(anchor, under)]⟩

/-- The footing of a further stitch into the anchor. -/
def shared (anchor : Nat) : Footing := ⟨anchor, anchor, [anchor], []⟩

/-- The footing of a stitch over the next two live ones. -/
def across (anchor middle under : Nat) : Footing :=
  ⟨under, anchor, [anchor, middle, under], [(anchor, middle), (middle, under)]⟩

variable {anchor middle under m n : Nat}

theorem within_next (hanchor : anchor < n) (hunder : under < n) : (next anchor under).Within n :=
  ⟨hunder, hanchor, by simp [next, hanchor, hunder], by simp [next, hanchor, hunder]⟩

theorem within_shared (hanchor : anchor < n) : (shared anchor).Within n :=
  ⟨hanchor, hanchor, by simp [shared, hanchor], by simp [shared]⟩

theorem within_across (hanchor : anchor < n) (hmiddle : middle < n) (hunder : under < n) :
    (across anchor middle under).Within n :=
  ⟨hunder, hanchor, by simp [across, hanchor, hmiddle, hunder],
    by simp [across, hanchor, hmiddle, hunder]⟩

theorem Within.mono {f : Footing} (within : f.Within m) (hle : m ≤ n) : f.Within n where
  under := Nat.lt_of_lt_of_le within.under hle
  anchor := Nat.lt_of_lt_of_le within.anchor hle
  ends e he := Nat.lt_of_lt_of_le (within.ends e he) hle
  corners c hc :=
    ⟨Nat.lt_of_lt_of_le (within.corners c hc).1 hle, Nat.lt_of_lt_of_le (within.corners c hc).2 hle⟩

end Footing

/-- Makes a stitch on a footing.  The node made before it holds it as well, and is a corner of its
first triangle. -/
def stand (g : Fabric) (stitch : Stitch) (f : Footing) : Fabric :=
  g.weave stitch f.under (g.newest :: f.ends) ((g.newest, f.anchor) :: f.corners)

/-- Whether all that is new in `h` is a stitch on a footing. -/
structure StandsOn (g h : Fabric) (stitch : Stitch) (f : Footing) : Prop where
  node : h.node? g.size = some (g.newNode stitch g.newest f.under)
  edges : h.edges = g.edges ++ ((g.newest :: f.ends).map fun e => ⟨g.size, e, 1⟩).toArray
  faces : h.faces = g.faces ++ (stitchFaces g.size ((g.newest, f.anchor) :: f.corners)).toArray

theorem Taken.standsOn (taken : g.Taken t) (stitch : Stitch) {f : Footing}
    (within : f.Within g.size) : g.StandsOn (t.stand stitch f) stitch f := by
  have hnewest := newest_lt (Nat.zero_lt_of_lt within.under)
  have hends : ∀ e ∈ g.newest :: f.ends, e < g.size :=
    List.forall_mem_cons.2 ⟨hnewest, within.ends⟩
  rw [stand, weave_eq, taken.newest_eq, taken.size_eq, taken.edges, taken.faces]
  refine ⟨?_, by rw [stitchEdges_of_lt hends], rfl⟩
  have hpush := node?_pushNode t stitch g.newest f.under g.size
  rw [if_pos taken.size_eq.symm, newNode, taken.size_eq, taken.round, taken.share_eq] at hpush
  exact hpush

/-! ## A second fabric beside the first -/

theorem isRing_join_left (other : Fabric) {id : Nat} (hid : id < g.size) :
    (g.join other).isRing id = g.isRing id := by
  rw [isRing, node?, getElem?_join_left other hid, isRing, node?]

/-- The front of the outline is taken as it was without the second fabric. -/
theorem take?_join (wf : g.WellFormed) {front : Nat} (htake : g.take? = some (front, t))
    (other : Fabric) : (g.join other).take? = some (front, t.join other) := by
  obtain ⟨hhead, hcases⟩ := take?_eq_some htake
  have hring := isRing_join_left other (wf.outline_lt front (List.mem_of_head? hhead))
  obtain ⟨rest, hout⟩ := List.head?_eq_some_iff.1 hhead
  have houtline : (g.join other).outline = front :: (rest ++ other.outline.map (· + g.size)) := by
    rw [join, hout, List.cons_append]
  rcases hcases with ⟨hfront, rfl⟩ | ⟨hfront, rfl⟩
  · rw [take?_of_ring houtline (hring.trans hfront)]
    simp only [takeRing, markRing, join, Option.some.injEq, Prod.mk.injEq, true_and]
    rw [Nat.add_right_comm]
    rfl
  · rw [take?_of_not_ring houtline (hring.trans hfront)]
    simp only [takeFront, join, hout, List.tail_cons, Option.some.injEq, Prod.mk.injEq, true_and]
    rw [Nat.add_right_comm]
    rfl

theorem Taken.join (taken : g.Taken t) (other : Fabric) :
    (g.join other).Taken (t.join other) := by
  have hused : t.roundsUsed = g.roundsUsed := by
    rw [roundsUsed, taken.round, taken.made, roundsUsed]
  refine ⟨?_, ?_, ?_, ?_, taken.round, taken.made, taken.length⟩
  · rw [Fabric.join, taken.nodes, taken.size_eq, hused, Fabric.join]
  · rw [Fabric.join, taken.edges, taken.size_eq, Fabric.join]
  · rw [Fabric.join, taken.joints, taken.size_eq, Fabric.join]
  · rw [Fabric.join, taken.faces, taken.size_eq, Fabric.join]

/-- The live stitch that is taken is a node, and so is the anchor. -/
theorem within_of_take? (wf : g.WellFormed) {under : Nat} (htake : g.take? = some (under, t)) :
    (Footing.next (t.cursor.anchor?.getD under) under).Within g.size := by
  obtain ⟨wf', hunder⟩ := wf.take htake
  rw [← size_of_take? htake]
  exact Footing.within_next (wf'.anchor_getD_lt hunder) hunder

/-- A plain stitch that can be worked onto a fabric can be worked onto it beside another one, and
stands on the same footing. -/
theorem exists_stand (wf : g.WellFormed) (plain : i.isPlain = true)
    (happly : g.apply i = .ok h) :
    ∃ t f, g.Taken t ∧ f.Within g.size ∧ h = t.stand i.stitch f ∧
      ∀ other, (g.join other).apply i = .ok ((t.join other).stand i.stitch f) := by
  cases works_of_apply happly with
  | single take =>
    exact ⟨_, _, .of_take? take, within_of_take? wf take, rfl, fun other =>
      workNext_of_take? .single (take?_join wf take other)⟩
  | moveOn moves take =>
    refine ⟨_, _, .of_take? take, within_of_take? wf take, rfl, fun other => ?_⟩
    have moves' : (g.join other).MovesOn := moves
    rw [apply, workIncrease_of_movesOn moves']
    exact workNext_of_take? .increase (take?_join wf take other)
  | @share anchor shared fresh =>
    have hanchor := wf.anchor_lt shared
    have within := Footing.within_shared hanchor
    have hwork : ∀ other, (g.join other).apply .increase =
        .ok ((if g.isRing anchor then (g.join other).markRing else g.join other).weaveShared
          anchor) := by
      intro other
      have shared' : (g.join other).cursor.anchor? = some anchor := shared
      have fresh' : (g.join other).cursor.anchorSpent = false := fresh
      rw [apply, workIncrease, shared', fresh']
      dsimp only
      rw [workAnchor_eq, isRing_join_left other hanchor]
    -- A ring takes note that it was worked into, on one fabric as on both.
    by_cases hring : g.isRing anchor = true
    · simp only [if_pos hring] at hwork ⊢
      exact ⟨g.markRing, _, .markRing g, within, rfl, hwork⟩
    · simp only [if_neg hring] at hwork ⊢
      exact ⟨g, _, .refl g, within, rfl, hwork⟩
  | @decrease middle under once twice first second =>
    obtain ⟨wf₁, hmiddle⟩ := wf.take first
    obtain ⟨wf₂, hunder⟩ := wf₁.take second
    rw [← size_of_take? second] at hmiddle
    have hanchor := wf₂.anchor_getD_lt hmiddle
    have taken := (Taken.of_take? first).trans (.of_take? second)
    rw [taken.size_eq] at hmiddle hunder hanchor
    exact ⟨twice, _, taken, Footing.within_across hanchor hmiddle hunder, rfl, fun other =>
      workDecrease_of_take? (take?_join wf first other) (take?_join wf₁ second other)⟩
  | loop | chain | magicRing | slip | join | finishOff => simp [Instruction.isPlain] at plain

theorem newest_join (g other : Fabric) :
    (g.join other).newest = if other.size = 0 then g.newest else g.size + other.newest := by
  unfold newest
  rw [size_join]
  split <;> omega

/-- **Beside a second fabric, a stitch finds its footing in the first, and goes on from the newest
node of the second.**  A plain stitch that can be worked onto a fabric can also be worked onto it
beside another one.  It is worked into the same stitch, held to the same nodes and has the same
corners, except that the node made before it is the newest of both fabrics.  It is therefore held to
the first fabric alone exactly if there is nothing beside it. -/
theorem apply_join {a b : Fabric} (reach : a.Reachable) (reachOther : b.Reachable)
    (plain : i.isPlain = true) (works : a.apply i = .ok h) :
    ∃ k f, (a.join b).apply i = .ok k ∧ f.Within a.size ∧
      a.StandsOn h i.stitch f ∧ (a.join b).StandsOn k i.stitch f ∧
      (a.join b).newest = (if b.size = 0 then a.newest else a.size + b.newest) ∧
      ((∀ edge ∈ k.edges, edge.source = (a.join b).size → edge.target < a.size) ↔ b.size = 0) := by
  obtain ⟨t, f, taken, within, rfl, hwork⟩ := exists_stand reach.wellFormed plain works
  have hsize := size_join a b
  have within' : f.Within (a.join b).size := within.mono (by omega)
  have stands := (taken.join b).standsOn i.stitch within'
  refine ⟨_, f, hwork b, within, taken.standsOn i.stitch within, stands, newest_join a b, ?_, ?_⟩
  · -- The edge to the newest node stays within the first fabric only if that is its own newest.
    intro apart
    have hmem : (⟨(a.join b).size, (a.join b).newest, 1⟩ : Edge) ∈
        ((t.join b).stand i.stitch f).edges := by
      rw [stands.edges]
      simp
    have hlt : (a.join b).newest < a.size := apart _ hmem rfl
    unfold newest at hlt
    have hpos := Nat.zero_lt_of_lt within.under
    omega
  · intro hnone edge hmem hsource
    rw [stands.edges] at hmem
    rcases Array.mem_append.1 hmem with hold | hnew
    · have hlt := ((reach.join reachOther).wellFormed.edge_lt edge hold).2
      exact absurd hsource (Nat.ne_of_lt hlt)
    · obtain ⟨e, he, rfl⟩ := List.mem_map.1 (List.mem_toArray.1 hnew)
      rcases List.mem_cons.1 he with rfl | he
      · show (a.join b).newest < a.size
        rw [newest_join, if_pos hnone]
        exact newest_lt (Nat.zero_lt_of_lt within.under)
      · exact within.ends e he

/-- A decrease on a disc beside a ring: its footing is the disc, but the ring holds it. -/
theorem apply_join_discs : ∃ (a b h k : Fabric) (f : Footing), a.Reachable ∧ b.Reachable ∧
    a.apply .decrease = .ok h ∧ (a.join b).apply .decrease = .ok k ∧ f.Within a.size ∧
    a.StandsOn h .decrease f ∧ (a.join b).StandsOn k .decrease f ∧ (a.join b).newest = 4 ∧
    ¬∀ edge ∈ k.edges, edge.source = (a.join b).size → edge.target < a.size := by
  let disc := worked (ofPattern ⟨[[.loop], [.single, .single, .single]]⟩)
  let ring := worked (ofPattern ⟨[[.loop]]⟩)
  have reach : disc.Reachable := .append _ .empty
  have reachOther : ring.Reachable := .append _ .empty
  have works : disc.apply .decrease = .ok (worked (disc.applyAll [.decrease])) :=
    apply_eq_ok_worked (by decide +kernel)
  obtain ⟨k, f, hwork, within, stands, stands', hnewest, hiff⟩ :=
    apply_join reach reachOther rfl works
  refine ⟨disc, ring, _, k, f, reach, reachOther, works, hwork, within, stands, stands', ?_, ?_⟩
  · exact hnewest.trans (by decide +kernel)
  · exact fun apart => absurd (hiff.1 apart) (by decide +kernel)

/-- A stitch on one of two like discs is held to the newest stitch of the other. -/
theorem stitch_held_beyond : ∃ disc h k, ofPattern ⟨[[.loop], [.single, .single]]⟩ = .ok disc ∧
    disc.apply .single = .ok h ∧ (disc.join disc).apply .single = .ok k ∧ disc.size = 3 ∧
    h.edges.toList.drop disc.edges.size = [⟨3, 2, 1⟩, ⟨3, 1, 1⟩, ⟨3, 0, 1⟩] ∧
    h.faces.toList.drop disc.faces.size = [⟨3, 2, 0⟩, ⟨3, 0, 1⟩] ∧
    k.edges.toList.drop (disc.join disc).edges.size = [⟨6, 5, 1⟩, ⟨6, 1, 1⟩, ⟨6, 0, 1⟩] ∧
    k.faces.toList.drop (disc.join disc).faces.size = [⟨6, 5, 0⟩, ⟨6, 0, 1⟩] := by
  refine ⟨worked _, worked _, worked _, eq_ok_worked ?_, apply_eq_ok_worked ?_,
    apply_eq_ok_worked ?_, ?_⟩ <;> decide +kernel

end Fabric

end Crochet
