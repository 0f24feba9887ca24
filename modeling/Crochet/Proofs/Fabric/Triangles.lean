import Crochet.Proofs.Fabric.WellFormed
import Crochet.Proofs.Fabric.Worked

/-!
# Triangles are held on every side

In a piece that is worked from a single ring, each side of each triangle is an edge of one stitch
(`sides_tied_of_workedBy`).

A stitch only holds itself to older nodes, so the side of its triangles that lies opposite to it
has to be held already.  `InHand` is the invariant that sees to it: the live stitches are the
newest nodes in the order of making, and the stitch in hand, which was worked into last, is held to
the newest node and to the oldest live one.  Taking the oldest live stitch into the hand keeps it
(`InHand.take`), and so does the stitch that is then woven (`InHand.weave`).
-/

namespace Crochet

namespace Fabric

/-! ## Nodes held at one stitch -/

/-- Whether two nodes are held at the distance of one stitch. -/
def Tied (g : Fabric) (i j : Nat) : Prop :=
  (⟨i, j, 1⟩ : Edge) ∈ g.edges ∨ (⟨j, i, 1⟩ : Edge) ∈ g.edges

instance (g : Fabric) (i j : Nat) : Decidable (g.Tied i j) := inferInstanceAs (Decidable (_ ∨ _))

/-- Whether two nodes are held at the distance of one stitch, or are one node. -/
def Near (g : Fabric) (i j : Nat) : Prop := i = j ∨ g.Tied i j

theorem Near.refl (g : Fabric) (i : Nat) : g.Near i i := Or.inl rfl

theorem Near.symm {g : Fabric} {i j : Nat} (near : g.Near i j) : g.Near j i := by
  rcases near with rfl | hij | hji
  · exact .refl g i
  · exact Or.inr (Or.inr hij)
  · exact Or.inr (Or.inl hji)

theorem Near.tied {g : Fabric} {i j : Nat} (near : g.Near i j) (hne : i ≠ j) : g.Tied i j :=
  near.resolve_left hne

theorem Tied.mono {g h : Fabric} (hedges : ∀ edge ∈ g.edges, edge ∈ h.edges) {i j : Nat}
    (tied : g.Tied i j) : h.Tied i j :=
  tied.imp (hedges _) (hedges _)

theorem Near.mono {g h : Fabric} (hedges : ∀ edge ∈ g.edges, edge ∈ h.edges) {i j : Nat}
    (near : g.Near i j) : h.Near i j :=
  near.imp id (Tied.mono hedges)

/-- Whether all sides of a triangle are held. -/
def Framed (g : Fabric) (face : Face) : Prop :=
  g.Tied face.a face.b ∧ g.Tied face.b face.c ∧ g.Tied face.a face.c

theorem Framed.mono {g h : Fabric} (hedges : ∀ edge ∈ g.edges, edge ∈ h.edges) {face : Face}
    (framed : g.Framed face) : h.Framed face :=
  ⟨framed.1.mono hedges, framed.2.1.mono hedges, framed.2.2.mono hedges⟩

/-! ## The invariant -/

/-- A well-formed fabric of one ring with a stitch in hand, whose triangles are held. -/
structure InHand (g : Fabric) (hand : Option Nat) : Prop extends g.WellFormed where
  /-- The live stitches are the newest ones. -/
  outline_eq : ∃ first ≤ g.size, g.outline = List.range' first (g.size - first)
  ring_eq : ∀ {i : Nat}, g.isRing i = true → i = 0
  /-- There is an anchor as soon as there is a node, and it is held to the newest one. -/
  anchor : 0 < g.size → ∃ anchor, g.cursor.anchor? = some anchor ∧ g.Near anchor g.newest
  front : ∀ {a f : Nat}, hand = some a → g.outline.head? = some f → g.Near a f
  /-- As long as the ring is live, it is the stitch in hand. -/
  ring_front : ∀ {f : Nat}, g.outline.head? = some f → g.isRing f = true → hand = some f
  framed : ∀ face ∈ g.faces, g.Framed face

/-- The invariant between instructions: the stitch in hand is the anchor. -/
abbrev Woven (g : Fabric) : Prop := g.InHand g.cursor.anchor?

theorem Woven.empty : Fabric.empty.Woven where
  toWellFormed := .empty
  outline_eq := ⟨0, Nat.le_refl _, rfl⟩
  ring_eq h := by simp [isRing, node?, Fabric.empty] at h
  anchor h := absurd h (Nat.lt_irrefl 0)
  front h := by simp [Fabric.empty] at h
  ring_front h := by simp [Fabric.empty] at h
  framed := by simp [Fabric.empty]

variable {g h : Fabric} {hand : Option Nat}

/-- A node of a piece with one ring is held to the one made after it. -/
theorem InHand.near_succ (inHand : g.InHand hand) {i : Nat} (hi : i + 1 < g.size) :
    g.Near i (i + 1) := by
  obtain ⟨node, hnode⟩ : ∃ node, g.nodes[i + 1]? = some node := ⟨_, Array.getElem?_eq_getElem hi⟩
  have hring : node.isRing = false := by
    rw [← isRing_of_node? hnode, ← Bool.not_eq_true]
    intro hring
    exact Nat.succ_ne_zero i (inHand.ring_eq hring)
  exact Or.inr (Or.inr (inHand.held hnode hring))

/-- The live stitches after the oldest one are the newest ones again, and start with the node after
it. -/
theorem InHand.tail (inHand : g.InHand hand) {front : Nat} (hhead : g.outline.head? = some front) :
    (∃ first ≤ g.size, g.outline.tail = List.range' first (g.size - first)) ∧
      ∀ next, g.outline.tail.head? = some next → next = front + 1 ∧ next < g.size := by
  obtain ⟨first, hle, hout⟩ := inHand.outline_eq
  cases hcount : g.size - first with
  | zero =>
    rw [hout, hcount] at hhead
    simp at hhead
  | succ n =>
    rw [hcount, List.range'_succ] at hout
    obtain rfl : first = front := by simpa [hout] using hhead
    have hn : n = g.size - (first + 1) := by omega
    refine ⟨⟨first + 1, by omega, by rw [hout, List.tail_cons, hn]⟩, fun next hnext => ?_⟩
    rw [hout, List.tail_cons] at hnext
    have hmem := List.mem_range'_1.1 (List.mem_of_head? hnext)
    cases n with
    | zero => omega
    | succ n =>
      rw [List.range'_succ, List.head?_cons, Option.some.injEq] at hnext
      omega

/-- The invariant is about nodes, edges, faces, the anchor and the outline alone.  Where no node
and no face is new, only the outline and the stitch in hand have to be looked at. -/
theorem InHand.update {hand' : Option Nat} (inHand : g.InHand hand) (wf : h.WellFormed)
    (hnodes : h.nodes = g.nodes) (hmono : ∀ edge ∈ g.edges, edge ∈ h.edges)
    (hfaces : h.faces = g.faces) (hanchor : h.cursor.anchor? = g.cursor.anchor?)
    (hout : ∃ first ≤ g.size, h.outline = List.range' first (g.size - first))
    (hfront : ∀ a f, hand' = some a → h.outline.head? = some f → g.Near a f)
    (hring : ∀ f, h.outline.head? = some f → g.isRing f = true → hand' = some f) :
    h.InHand hand' := by
  have hsize := size_eq_of_nodes hnodes
  have hkind : ∀ i, h.isRing i = g.isRing i := fun i => by rw [isRing, node?, hnodes]; rfl
  refine { wf with outline_eq := ?_, ring_eq := ?_, anchor := ?_, front := ?_, ring_front := ?_,
                   framed := ?_ }
  · rw [hsize]
    exact hout
  · intro i hi
    exact inHand.ring_eq (hkind i ▸ hi)
  · intro hpos
    obtain ⟨anchor, hsome, hnear⟩ := inHand.anchor (hsize ▸ hpos)
    rw [hanchor, newest, hsize]
    exact ⟨anchor, hsome, hnear.mono hmono⟩
  · intro a f ha hf
    exact (hfront a f ha hf).mono hmono
  · intro f hf hringf
    exact hring f hf (hkind f ▸ hringf)
  · rw [hfaces]
    exact fun face hface => (inHand.framed face hface).mono hmono

/-- Edges that are added and changes of the cursor's flags and counters keep the invariant. -/
theorem InHand.of_outline_eq (inHand : g.InHand hand) (wf : h.WellFormed)
    (hnodes : h.nodes = g.nodes)
    (hmono : ∀ edge ∈ g.edges, edge ∈ h.edges) (hfaces : h.faces = g.faces)
    (hout : h.outline = g.outline) (hanchor : h.cursor.anchor? = g.cursor.anchor?) :
    h.InHand hand := by
  refine inHand.update wf hnodes hmono hfaces hanchor ?_ ?_ ?_
  · rw [hout]
    exact inHand.outline_eq
  · rw [hout]
    exact fun a f => inHand.front
  · rw [hout]
    exact fun f => inHand.ring_front

/-- The oldest live stitch goes out of the outline, and becomes the stitch in hand. -/
theorem InHand.of_outline_tail (inHand : g.InHand hand) {front : Nat}
    (hhead : g.outline.head? = some front) (wf : h.WellFormed) (hnodes : h.nodes = g.nodes)
    (hedges : h.edges = g.edges) (hfaces : h.faces = g.faces) (hout : h.outline = g.outline.tail)
    (hanchor : h.cursor.anchor? = g.cursor.anchor?) : h.InHand (some front) := by
  obtain ⟨hnewest, hnext⟩ := inHand.tail hhead
  refine inHand.update wf hnodes (by simp [hedges]) hfaces hanchor ?_ ?_ ?_
  · rw [hout]
    exact hnewest
  · intro a f ha hf
    obtain rfl := Option.some.inj ha
    obtain ⟨rfl, hlt⟩ := hnext f (hout ▸ hf)
    exact inHand.near_succ hlt
  · intro f hf hringf
    obtain ⟨rfl, -⟩ := hnext f (hout ▸ hf)
    exact absurd (inHand.ring_eq hringf) (Nat.succ_ne_zero _)

/-! ## Stitches -/

/-- Taking the next live stitch puts it into the hand; it is held to the stitch that was there. -/
theorem InHand.take (inHand : g.InHand hand) {front : Nat} (htake : g.take? = some (front, h)) :
    h.InHand (some front) ∧ ∀ a, hand = some a → h.Near a front := by
  obtain ⟨wf, -⟩ := inHand.toWellFormed.take htake
  obtain ⟨hhead, ⟨hring, rfl⟩ | ⟨-, rfl⟩⟩ := take?_eq_some htake
  · obtain rfl := inHand.ring_front hhead hring
    refine ⟨inHand.of_outline_eq wf rfl (fun _ => id) rfl rfl rfl, fun a ha => ?_⟩
    obtain rfl := Option.some.inj ha
    exact .refl _ _
  · exact ⟨inHand.of_outline_tail hhead wf rfl rfl rfl rfl rfl, fun a ha => inHand.front ha hhead⟩

theorem newest_weave (stitch : Stitch) (under : Nat) (ends : List Nat)
    (corners : List (Nat × Nat)) :
    (g.weave stitch under ends corners).newest = g.size := by
  rw [newest, size_weave, Nat.add_sub_cancel]

theorem tied_weave (stitch : Stitch) (under : Nat) {ends : List Nat} (corners : List (Nat × Nat))
    {e : Nat} (he : e ∈ ends) (hlt : e < g.size) :
    (g.weave stitch under ends corners).Tied g.size e := by
  have hmem : (⟨g.size, e, 1⟩ : Edge) ∈ stitchEdges g.size ends := by
    refine List.mem_map.2 ⟨e, List.mem_filter.2 ⟨he, ?_⟩, rfl⟩
    simp only [decide_eq_true_eq, ne_eq]
    omega
  rw [Tied, weave_eq]
  exact Or.inl (Array.mem_append_right _ (by simpa using hmem))

theorem edges_weave_mono (stitch : Stitch) (under : Nat) (ends : List Nat)
    (corners : List (Nat × Nat)) :
    ∀ edge ∈ g.edges, edge ∈ (g.weave stitch under ends corners).edges := by
  intro edge hmem
  rw [weave_eq]
  exact Array.mem_append_left _ hmem

/-- **The motion of a stitch keeps triangles held.**  It holds the new node to the newest one and to
the stitch in hand; its triangles lie over pairs of nodes that it is held to and that are held to
each other. -/
theorem InHand.weave {stitch : Stitch} {under : Nat} {ends : List Nat} {corners : List (Nat × Nat)}
    (inHand : g.InHand (some under)) (wf : (g.weave stitch under ends corners).WellFormed)
    (hstitch : stitch ≠ .loop) (hunder : under ∈ ends) (hends : ∀ e ∈ ends, e < g.size)
    (hcorners : ∀ c ∈ corners, c.1 ∈ ends ∧ c.2 ∈ ends ∧ g.Near c.1 c.2) :
    (g.weave stitch under ends corners).Woven := by
  have hmono := edges_weave_mono (g := g) stitch under ends corners
  have htied : ∀ e ∈ ends, (g.weave stitch under ends corners).Tied g.size e := fun e he =>
    tied_weave stitch under corners he (hends e he)
  have hunderNew : (g.weave stitch under ends corners).Near under g.size :=
    Near.symm (Or.inr (htied under hunder))
  have hring : ∀ i, (g.weave stitch under ends corners).isRing i = true → g.isRing i = true := by
    intro i hi
    rw [isRing_weave] at hi
    split at hi
    · exact absurd (by simpa using hi) hstitch
    · exact hi
  obtain ⟨first, hle, hout⟩ := inHand.outline_eq
  refine { wf with outline_eq := ?_, ring_eq := ?_, anchor := ?_, front := ?_, ring_front := ?_,
                   framed := ?_ }
  · refine ⟨first, ?_, ?_⟩
    · rw [size_weave]
      omega
    · have hlast : first + (g.size - first) = g.size := by omega
      have hcount : g.size + 1 - first = g.size - first + 1 := by omega
      rw [outline_weave, size_weave, hout, hcount, List.range'_1_concat, hlast]
  · intro i hi
    exact inHand.ring_eq (hring i hi)
  · intro _
    rw [cursor_weave, newest_weave]
    exact ⟨under, rfl, hunderNew⟩
  · intro a f ha hf
    rw [cursor_weave] at ha
    obtain rfl : under = a := Option.some.inj ha
    rw [outline_weave, List.head?_append] at hf
    cases hhead : g.outline.head? with
    | none =>
      obtain rfl : g.size = f := by simpa [hhead] using hf
      exact hunderNew
    | some oldest =>
      obtain rfl : oldest = f := by simpa [hhead] using hf
      exact (inHand.front rfl hhead).mono hmono
  · intro f hf hringf
    have hring' := hring f hringf
    rw [outline_weave, List.head?_append] at hf
    cases hhead : g.outline.head? with
    | none =>
      obtain rfl : g.size = f := by simpa [hhead] using hf
      exact absurd (lt_size_of_isRing hring') (Nat.lt_irrefl _)
    | some oldest =>
      obtain rfl : oldest = f := by simpa [hhead] using hf
      rw [cursor_weave]
      exact inHand.ring_front hhead hring'
  · intro face hface
    rw [weave_eq] at hface
    rcases Array.mem_append.1 hface with hold | hnew
    · exact (inHand.framed face hold).mono hmono
    · obtain ⟨c, hc, rfl⟩ := List.mem_map.1 (List.mem_toArray.1 hnew)
      obtain ⟨hc, hapart⟩ := List.mem_filter.1 hc
      obtain ⟨hfirst, hsecond, hnear⟩ := hcorners c hc
      have hne : c.1 ≠ c.2 := by simp at hapart; exact hapart.2.2
      exact ⟨htied _ hfirst, (hnear.mono hmono).tied hne, htied _ hsecond⟩

theorem InHand.weaveNext {stitch : Stitch} {under : Nat} (inHand : g.InHand (some under))
    (hstitch : stitch ≠ .loop) (hunder : under < g.size)
    (hnear : ∀ a, g.cursor.anchor? = some a → g.Near a under) :
    (g.weaveNext stitch under).Woven := by
  have hpos := Nat.zero_lt_of_lt hunder
  obtain ⟨anchor, hanchor, hnewest⟩ := inHand.anchor hpos
  refine inHand.weave (inHand.toWellFormed.weaveNext hstitch hunder) hstitch (by simp) ?_ ?_
  · simp [hanchor, newest_lt hpos, hunder, inHand.anchor_lt hanchor]
  · simp [hanchor, hnewest.symm, hnear anchor hanchor]

theorem InHand.weaveShared {anchor : Nat} (inHand : g.InHand (some anchor))
    (hanchor : g.cursor.anchor? = some anchor) : (g.weaveShared anchor).Woven := by
  have hlt := inHand.anchor_lt hanchor
  have hpos := Nat.zero_lt_of_lt hlt
  obtain ⟨a, ha, hnewest⟩ := inHand.anchor hpos
  obtain rfl : a = anchor := Option.some.inj (ha.symm.trans hanchor)
  refine inHand.weave (inHand.toWellFormed.weaveShared hlt) (by decide) (by simp) ?_ ?_
  · simp [newest_lt hpos, hlt]
  · simp [hnewest.symm]

theorem InHand.weaveOver {middle under : Nat} (inHand : g.InHand (some under))
    (hmiddle : middle < g.size) (hunder : under < g.size)
    (hnear : ∀ a, g.cursor.anchor? = some a → g.Near a middle) (hnext : g.Near middle under) :
    (g.weaveOver middle under).Woven := by
  have hpos := Nat.zero_lt_of_lt hunder
  obtain ⟨anchor, hanchor, hnewest⟩ := inHand.anchor hpos
  refine inHand.weave (inHand.toWellFormed.weaveOver hmiddle hunder) (by decide) (by simp) ?_ ?_
  · simp [hanchor, newest_lt hpos, hmiddle, hunder, inHand.anchor_lt hanchor]
  · simp [hanchor, hnewest.symm, hnear anchor hanchor, hnext]

/-! ## Instructions and rounds -/

/-- The ring that starts a piece is the only node, the anchor and all that is live. -/
theorem Woven.workLoop (woven : g.Woven) (hnone : g.size = 0) : g.workLoop.Woven := by
  have hsize : g.workLoop.size = 1 := by rw [size_workLoop, hnone]
  have hout : g.workLoop.outline = [0] := by
    obtain ⟨first, -, hout⟩ := woven.outline_eq
    rw [hnone, Nat.zero_sub, List.range'_zero] at hout
    simp [workLoop_eq, hout, hnone]
  have hanchor : g.workLoop.cursor.anchor? = some 0 := by simp [workLoop_eq, hnone]
  refine { woven.toWellFormed.workLoop with
    outline_eq := ⟨0, Nat.zero_le _, by rw [hout, hsize]; rfl⟩
    ring_eq := fun hring => ?_, anchor := fun _ => ⟨0, hanchor, ?_⟩
    front := fun ha hf => ?_, ring_front := fun hf _ => ?_, framed := fun face hface => ?_ }
  · have := lt_size_of_isRing hring
    omega
  · rw [newest, hsize]
    exact .refl _ _
  · rw [hanchor] at ha
    rw [hout] at hf
    exact Or.inl (Option.some.inj (ha.symm.trans hf))
  · rw [hout] at hf
    rw [hanchor]
    exact hf
  · have hlt := (woven.face_lt face hface).2.1
    omega

/-- Every instruction but a further ring keeps triangles held. -/
theorem Woven.apply {i : Instruction} (woven : g.Woven) (happly : g.apply i = .ok h)
    (hloop : i = .loop → g.size = 0) : h.Woven := by
  have wf := woven.toWellFormed.apply happly
  cases works_of_apply happly with
  | loop => exact woven.workLoop (hloop rfl)
  | chain => exact woven
  | single take =>
    obtain ⟨inHand, hnear⟩ := woven.take take
    have hunder := (woven.toWellFormed.take take).2
    refine inHand.weaveNext (by decide) hunder ?_
    rwa [(edges_of_take? take).2.1]
  | moveOn _ take =>
    obtain ⟨inHand, hnear⟩ := woven.take take
    have hunder := (woven.toWellFormed.take take).2
    refine inHand.weaveNext (by decide) hunder ?_
    rwa [(edges_of_take? take).2.1]
  | @share anchor shared fresh =>
    have inHand : g.InHand (some anchor) := by
      rw [← shared]
      exact woven
    split
    · have marked := inHand.of_outline_eq woven.markRing rfl (fun _ => id) rfl rfl rfl
      exact marked.weaveShared shared
    · exact inHand.weaveShared shared
  | decrease first second =>
    obtain ⟨once, hmiddle⟩ := woven.take first
    obtain ⟨twice, hunder⟩ := once.take second
    obtain ⟨wf₁, hlt⟩ := woven.toWellFormed.take first
    rw [← size_of_take? second] at hlt
    refine twice.weaveOver hlt (wf₁.take second).2 ?_ (hunder _ rfl)
    intro a ha
    rw [(edges_of_take? second).2.1, (edges_of_take? first).2.1] at ha
    exact (hmiddle a ha).mono (by simp [(edges_of_take? second).1])
  | magicRing => exact woven.of_outline_eq wf rfl (fun _ => id) rfl rfl rfl
  | slip last first apart =>
    rw [addEdge, if_neg apart] at wf ⊢
    exact woven.of_outline_eq wf rfl (fun _ hmem => Array.mem_push_of_mem _ hmem) rfl rfl rfl
  | join hnode hother =>
    unfold addJoint at wf ⊢
    split at wf
    · rwa [if_pos ‹_›]
    · rw [if_neg ‹_›]
      exact woven.of_outline_eq wf rfl (fun _ => id) rfl rfl rfl
  | finishOff =>
    rw [workFinish_eq] at wf ⊢
    exact woven.update wf rfl (fun _ => id) rfl rfl ⟨g.size, Nat.le_refl _, by simp⟩ (by simp)
      (by simp)

theorem Woven.beginRound (woven : g.Woven) (length : Nat) : (g.beginRound length).Woven :=
  woven.of_outline_eq (woven.toWellFormed.beginRound length) rfl (fun _ => id) rfl rfl rfl

/-- A ring that leaves at the end of a round is the anchor, and so is held to the next live
stitch. -/
theorem Woven.endRound (woven : g.Woven) : g.endRound.Woven := by
  have wf := woven.toWellFormed.endRound
  rw [Fabric.endRound, retireRing_eq] at wf ⊢
  split at wf
  · rename_i hretire
    rw [if_pos hretire]
    obtain ⟨front, hhead, hring⟩ := (Option.any_eq_true _ _).1 hretire.2
    have inHand := woven.of_outline_tail hhead wf rfl rfl rfl rfl rfl
    rw [← woven.ring_front hhead hring] at inHand
    exact inHand
  · rename_i hstays
    rw [if_neg hstays]
    exact woven.of_outline_eq wf rfl (fun _ => id) rfl rfl rfl

/-- What holds of a piece in which every loop worked came first. -/
theorem steps_woven : Steps fun done g =>
    (∀ i ∈ done.tail, i ≠ .loop) → g.Woven ∧ (done = [] → g.size = 0) where
  apply := by
    intro done g h i hg happly honce
    cases done with
    | nil =>
      obtain ⟨woven, hnone⟩ := hg (by simp)
      exact ⟨woven.apply happly fun _ => hnone rfl, by simp⟩
    | cons first rest =>
      have hrest : ∀ j ∈ rest ++ [i], j ≠ .loop := honce
      obtain ⟨woven, -⟩ := hg fun j hj => hrest j (List.mem_append_left _ hj)
      exact ⟨woven.apply happly fun hloop => absurd hloop (hrest i (by simp)), by simp⟩
  beginRound length hg honce := ⟨(hg honce).1.beginRound length, (hg honce).2⟩
  endRound := by
    intro done g hg honce
    obtain ⟨woven, hnone⟩ := hg honce
    exact ⟨woven.endRound, fun hdone => by rw [size, (nodes_endRound g).1]; exact hnone hdone⟩

/-- **Every triangle is held on every side.**  In a fabric that is worked without a fault, with no
loop after the first instruction, each side of each triangle is an edge of one stitch. -/
theorem sides_tied_of_workedBy {done : List Instruction} {g : Fabric} (worked : WorkedBy done g)
    (once : ∀ i ∈ done.tail, i ≠ .loop) :
    ∀ face ∈ g.faces, g.Tied face.a face.b ∧ g.Tied face.b face.c ∧ g.Tied face.a face.c :=
  ((worked.of_steps steps_woven fun _ => ⟨.empty, fun _ => rfl⟩) once).1.framed

/-- A cup that is closed, goes on from its last anchor, and gets a stitch outside of its rounds. -/
theorem sides_tied_of_workedBy_cup : ∃ done g, WorkedBy done g ∧ (∀ i ∈ done.tail, i ≠ .loop) ∧
    g.faces.size = 12 ∧
      ∀ face ∈ g.faces, g.Tied face.a face.b ∧ g.Tied face.b face.c ∧ g.Tied face.a face.c := by
  have hworks : ofPattern ⟨[[.loop], [.single, .increase, .increase],
    [.single, .increase, .decrease, .slip, .chain],
    [.finishOff, .magicRing, .increase, .increase]]⟩ = .ok _ := rfl
  have hloose := (WorkedBy.of_ofPattern hworks).apply (i := .single) rfl
  refine ⟨_, _, hloose, by decide, by decide +kernel, ?_⟩
  exact sides_tied_of_workedBy hloose (by decide)

end Fabric

end Crochet
