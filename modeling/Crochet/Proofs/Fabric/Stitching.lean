import Crochet.Fabric.Work

/-!
# What one instruction does

Every stitch that adds yarn is one motion with different ends: a node is made after the newest one,
held to a few older nodes, and the triangles between it and pairs of older nodes are filled
(`weave`).  With that said once, `Works g i h` lists everything that the instruction `i` can do to a
fabric `g`, and `works_of_apply` shows that the list is complete.  Laws about fabrics are proved by
cases on it, and never open a stitch again.
-/

namespace Crochet

namespace Fabric

/-! ## Pieces -/

theorem node?_eq_none_iff {g : Fabric} {i : Nat} : g.node? i = none ↔ g.size ≤ i :=
  Array.getElem?_eq_none_iff

theorem lt_size_of_node? {g : Fabric} {i : Nat} {node : Node} (h : g.node? i = some node) :
    i < g.size :=
  (Array.getElem?_eq_some_iff.1 h).1

theorem isRing_of_size_le {g : Fabric} {i : Nat} (h : g.size ≤ i) : g.isRing i = false := by
  rw [isRing, node?_eq_none_iff.2 h, Option.any_none]

theorem isRing_of_node? {g : Fabric} {i : Nat} {node : Node} (h : g.node? i = some node) :
    g.isRing i = node.isRing := by
  rw [isRing, h, Option.any_some]

theorem lt_size_of_isRing {g : Fabric} {i : Nat} (h : g.isRing i = true) : i < g.size := by
  refine Nat.lt_of_not_le fun hle => ?_
  rw [isRing_of_size_le hle] at h
  exact Bool.false_ne_true h

/-- The nodes of a fabric once `last` leads to the node that is about to be made. -/
def leadOn (g : Fabric) (stitch : Stitch) (last : Nat) : Array Node :=
  if stitch ≠ .loop ∧ last ≠ g.size ∧ g.isRing last = false then
    g.nodes.modify last fun node => { node with next := g.size }
  else g.nodes

@[simp] theorem size_leadOn (g : Fabric) (stitch : Stitch) (last : Nat) :
    (g.leadOn stitch last).size = g.size := by
  unfold leadOn
  split
  · exact Array.size_modify
  · rfl

theorem getElem?_leadOn (g : Fabric) (stitch : Stitch) (last i : Nat) (hi : i ≠ g.size) :
    (g.leadOn stitch last)[i]? = (g.node? i).map fun node =>
      if i = last ∧ stitch ≠ .loop ∧ g.isRing last = false then
        { node with next := g.size }
      else node := by
  unfold leadOn
  by_cases hlead : stitch ≠ .loop ∧ last ≠ g.size ∧ g.isRing last = false
  · rw [if_pos hlead, Array.getElem?_modify]
    by_cases hil : last = i
    · subst hil
      simp [node?, hlead.1, hlead.2.2]
    · have : i ≠ last := fun h => hil h.symm
      simp [node?, hil, this]
  · rw [if_neg hlead]
    have hkept : ¬(i = last ∧ stitch ≠ .loop ∧ g.isRing last = false) :=
      fun h => hlead ⟨h.2.1, h.1 ▸ hi, h.2.2⟩
    simp only [if_neg hkept, Option.map_id']
    rfl

/-- The node that is made next. -/
def newNode (g : Fabric) (stitch : Stitch) (last under : Nat) : Node :=
  ⟨g.size, last, g.size, under, stitch, g.cursor.round, g.share⟩

theorem nodes_pushNode (g : Fabric) (stitch : Stitch) (last under : Nat) :
    (g.pushNode stitch last under).nodes =
      (g.leadOn stitch last).push (g.newNode stitch last under) := rfl

@[simp] theorem size_pushNode (g : Fabric) (stitch : Stitch) (last under : Nat) :
    (g.pushNode stitch last under).size = g.size + 1 := by
  rw [size, nodes_pushNode, Array.size_push, size_leadOn]

/-- The nodes after one was made: the older ones keep all but the link to the next one. -/
theorem node?_pushNode (g : Fabric) (stitch : Stitch) (last under i : Nat) :
    (g.pushNode stitch last under).node? i =
      if i = g.size then some (g.newNode stitch last under)
      else (g.node? i).map fun node =>
        if i = last ∧ stitch ≠ .loop ∧ g.isRing last = false then
          { node with next := g.size }
        else node := by
  rw [node?, nodes_pushNode, Array.getElem?_push, size_leadOn]
  by_cases hi : i = g.size
  · rw [if_pos hi, if_pos hi]
  · rw [if_neg hi, if_neg hi, getElem?_leadOn g stitch last i hi]

/-- Making a node changes no older one into a ring or back. -/
theorem isRing_pushNode (g : Fabric) (stitch : Stitch) (last under i : Nat) :
    (g.pushNode stitch last under).isRing i =
      if i = g.size then stitch == .loop else g.isRing i := by
  rw [isRing, node?_pushNode]
  by_cases hi : i = g.size
  · rw [if_pos hi, if_pos hi, Option.any_some, Node.isRing, newNode]
  · rw [if_neg hi, if_neg hi, Option.any_map, isRing]
    congr 1
    funext node
    simp only [Node.isRing]
    split <;> rfl

/-- What does not depend on the link to the next node stays as it is for the older nodes. -/
theorem map_nodes_pushNode {α : Type} (g : Fabric) (stitch : Stitch) (last under : Nat)
    (f : Node → α) (hf : ∀ (node : Node) (next : Nat), f { node with next := next } = f node) :
    (g.pushNode stitch last under).nodes.map f =
      (g.nodes.map f).push (f (g.newNode stitch last under)) := by
  have hlead : (g.leadOn stitch last).map f = g.nodes.map f := by
    unfold leadOn
    split
    · refine Array.ext_getElem? fun i => ?_
      rw [Array.getElem?_map, Array.getElem?_modify, Array.getElem?_map]
      split
      · cases g.nodes[i]? <;> simp [hf]
      · rfl
    · rfl
  rw [nodes_pushNode, Array.map_push, hlead]

/-- Holding a node to several others adds an edge to each of them that is not the node itself. -/
theorem foldl_addEdge (g : Fabric) (source : Nat) (ends : List Nat) :
    ends.foldl (fun h e => h.addEdge source e 1) g =
      { g with
        edges := g.edges ++
          ((ends.filter (source ≠ ·)).map fun e => (⟨source, e, 1⟩ : Edge)).toArray } := by
  induction ends generalizing g with
  | nil => simp
  | cons e rest ih =>
    rw [List.foldl_cons, ih]
    by_cases h : source = e
    · simp [addEdge, h]
    · simp [addEdge, h]

/-- Filling triangles between a node and pairs of others leaves out those without an area. -/
theorem foldl_addFace (g : Fabric) (a : Nat) (corners : List (Nat × Nat)) :
    corners.foldl (fun h c => h.addFace a c.1 c.2) g =
      { g with
        faces := g.faces ++
          ((corners.filter fun c => a ≠ c.1 ∧ a ≠ c.2 ∧ c.1 ≠ c.2).map
            fun c => (⟨a, c.1, c.2⟩ : Face)).toArray } := by
  induction corners generalizing g with
  | nil => simp
  | cons c rest ih =>
    rw [List.foldl_cons, ih]
    by_cases h : a = c.1 ∨ a = c.2 ∨ c.1 = c.2
    · have hdrop : ¬(a ≠ c.1 ∧ a ≠ c.2 ∧ c.1 ≠ c.2) :=
        fun hk => h.elim hk.1 fun h => h.elim hk.2.1 hk.2.2
      rw [addFace, if_pos h, List.filter_cons_of_neg (by simpa using hdrop)]
    · have hkeep : a ≠ c.1 ∧ a ≠ c.2 ∧ c.1 ≠ c.2 := by simpa [not_or] using h
      rw [addFace, if_neg h, List.filter_cons_of_pos (by simpa using hkeep)]
      simp

/-- Sewing pairs together leaves out a node paired with itself. -/
theorem foldl_addJoint (g : Fabric) (pairs : List (Nat × Nat)) :
    pairs.foldl (fun h pair => h.addJoint pair.1 pair.2) g =
      { g with
        joints := g.joints ++
          ((pairs.filter fun pair => pair.1 ≠ pair.2).map
            fun pair => (⟨pair.1, pair.2⟩ : Joint)).toArray } := by
  induction pairs generalizing g with
  | nil => simp
  | cons pair rest ih =>
    rw [List.foldl_cons, ih]
    by_cases h : pair.1 = pair.2
    · simp [addJoint, h]
    · simp [addJoint, h]

/-! ## Taking a live stitch -/

/-- The fabric after its oldest live stitch, which is not a ring, was taken. -/
def takeFront (g : Fabric) : Fabric :=
  { g with consumed := g.consumed + 1, outline := g.outline.tail }

/-- The fabric after a ring was worked into. -/
def markRing (g : Fabric) : Fabric := { g with cursor := { g.cursor with ringWorked := true } }

/-- The fabric after the ring at the front of the outline was taken, which stays where it is. -/
def takeRing (g : Fabric) : Fabric := { g.markRing with consumed := g.consumed + 1 }

/-- The two ways of taking a stitch. -/
theorem take?_eq_some {g h : Fabric} {front : Nat} (htake : g.take? = some (front, h)) :
    g.outline.head? = some front ∧
      (g.isRing front = true ∧ h = g.takeRing ∨ g.isRing front = false ∧ h = g.takeFront) := by
  unfold take? at htake
  cases hout : g.outline with
  | nil => simp [hout] at htake
  | cons first rest =>
    simp only [hout] at htake
    by_cases hring : g.isRing first = true
    · rw [if_pos hring] at htake
      obtain ⟨rfl, rfl⟩ := Prod.mk.inj (Option.some.inj htake)
      exact ⟨rfl, Or.inl ⟨hring, by simp [takeRing, markRing, hout]⟩⟩
    · rw [if_neg hring] at htake
      obtain ⟨rfl, rfl⟩ := Prod.mk.inj (Option.some.inj htake)
      exact ⟨rfl, Or.inr ⟨by simpa using hring, by simp [takeFront, hout]⟩⟩

/-- Taking a stitch is counted and makes no node. -/
theorem nodes_of_take? {g h : Fabric} {front : Nat} (htake : g.take? = some (front, h)) :
    h.nodes = g.nodes ∧ h.consumed = g.consumed + 1 := by
  obtain ⟨-, ⟨-, rfl⟩ | ⟨-, rfl⟩⟩ := take?_eq_some htake <;> exact ⟨rfl, rfl⟩

/-- Taking a stitch changes no edge, and of the cursor at most the note about rings. -/
theorem edges_of_take? {g h : Fabric} {front : Nat} (htake : g.take? = some (front, h)) :
    h.edges = g.edges ∧ h.cursor.anchor? = g.cursor.anchor? ∧ h.cursor.round = g.cursor.round := by
  obtain ⟨-, ⟨-, rfl⟩ | ⟨-, rfl⟩⟩ := take?_eq_some htake <;> exact ⟨rfl, rfl, rfl⟩

theorem size_of_take? {g h : Fabric} {front : Nat} (htake : g.take? = some (front, h)) :
    h.size = g.size := by
  rw [size, (nodes_of_take? htake).1, size]

theorem isRing_of_take? {g h : Fabric} {front : Nat} (htake : g.take? = some (front, h))
    (id : Nat) : h.isRing id = g.isRing id := by
  rw [isRing, node?, (nodes_of_take? htake).1, isRing, node?]

/-- A live stitch that is not a ring is there to be taken. -/
theorem take?_of_not_ring {g : Fabric} {front : Nat} {rest : List Nat}
    (houtline : g.outline = front :: rest) (hring : g.isRing front = false) :
    g.take? = some (front, { g with consumed := g.consumed + 1, outline := rest }) := by
  unfold take?
  rw [houtline]
  simp [hring]

/-- A ring at the front of the outline is there to be taken. -/
theorem take?_of_ring {g : Fabric} {front : Nat} {rest : List Nat}
    (houtline : g.outline = front :: rest) (hring : g.isRing front = true) :
    g.take? = some (front, g.takeRing) := by
  unfold take?
  rw [houtline]
  simp [hring, takeRing, markRing, houtline]

/-! ## The motion of a stitch -/

/-- Makes a stitch after the newest one, worked into `under`, held to each of `ends`, with the
triangle between it and each pair of `corners` filled. -/
def weave (g : Fabric) (stitch : Stitch) (under : Nat) (ends : List Nat)
    (corners : List (Nat × Nat)) : Fabric :=
  let made := g.pushNode stitch g.newest under
  let held := ends.foldl (fun h e => h.addEdge g.size e 1) made
  let filled := corners.foldl (fun h c => h.addFace g.size c.1 c.2) held
  filled.finishStitch g.size under

/-- The edges of a stitch, from its node to the older ones that hold it. -/
def stitchEdges (id : Nat) (ends : List Nat) : List Edge :=
  (ends.filter (id ≠ ·)).map fun e => ⟨id, e, 1⟩

/-- Older nodes all hold a stitch. -/
theorem stitchEdges_of_lt {id : Nat} {ends : List Nat} (hends : ∀ e ∈ ends, e < id) :
    stitchEdges id ends = ends.map fun e => ⟨id, e, 1⟩ := by
  have hall : ends.filter (id ≠ ·) = ends := by
    rw [List.filter_eq_self]
    intro e he
    simpa using Nat.ne_of_gt (hends e he)
  rw [stitchEdges, hall]

/-- The triangles of a stitch that have an area. -/
def stitchFaces (id : Nat) (corners : List (Nat × Nat)) : List Face :=
  (corners.filter fun c => id ≠ c.1 ∧ id ≠ c.2 ∧ c.1 ≠ c.2).map fun c => ⟨id, c.1, c.2⟩

theorem weave_eq (g : Fabric) (stitch : Stitch) (under : Nat) (ends : List Nat)
    (corners : List (Nat × Nat)) :
    g.weave stitch under ends corners =
      { nodes := (g.pushNode stitch g.newest under).nodes
        edges := g.edges ++ (stitchEdges g.size ends).toArray
        joints := g.joints
        faces := g.faces ++ (stitchFaces g.size corners).toArray
        outline := g.outline ++ [g.size]
        cursor := { g.cursor with
          anchor? := some under, anchorSpent := false, made := g.cursor.made + 1 }
        consumed := g.consumed } := by
  simp only [weave, foldl_addEdge, foldl_addFace]
  rfl

section

variable (g : Fabric) (stitch : Stitch) (under : Nat) (ends : List Nat) (corners : List (Nat × Nat))

@[simp] theorem size_weave : (g.weave stitch under ends corners).size = g.size + 1 := by
  rw [weave_eq]
  exact size_pushNode g stitch g.newest under

@[simp] theorem outline_weave :
    (g.weave stitch under ends corners).outline = g.outline ++ [g.size] := by
  rw [weave_eq]

@[simp] theorem consumed_weave : (g.weave stitch under ends corners).consumed = g.consumed := by
  rw [weave_eq]

@[simp] theorem cursor_weave :
    (g.weave stitch under ends corners).cursor =
      { g.cursor with anchor? := some under, anchorSpent := false, made := g.cursor.made + 1 } := by
  rw [weave_eq]

theorem isRing_weave (i : Nat) :
    (g.weave stitch under ends corners).isRing i =
      if i = g.size then stitch == .loop else g.isRing i := by
  rw [weave_eq]
  exact isRing_pushNode g stitch g.newest under i

end

/-- The ring that starts a piece, as one change of the fabric. -/
theorem workLoop_eq (g : Fabric) :
    g.workLoop =
      { g with
        nodes := (g.pushNode .loop g.size g.size).nodes
        outline := g.outline ++ [g.size]
        cursor := { g.cursor with
          anchor? := some g.size, anchorSpent := false, made := g.cursor.made + 1 } } := rfl

@[simp] theorem size_workLoop (g : Fabric) : g.workLoop.size = g.size + 1 :=
  size_pushNode g .loop g.size g.size

theorem isRing_workLoop (g : Fabric) (i : Nat) :
    g.workLoop.isRing i = if i = g.size then true else g.isRing i :=
  isRing_pushNode g .loop g.size g.size i

/-- A stitch into `under`, which was taken from the outline. -/
def weaveNext (g : Fabric) (stitch : Stitch) (under : Nat) : Fabric :=
  let anchor := g.cursor.anchor?.getD under
  g.weave stitch under [g.newest, under, anchor] [(g.newest, anchor), (anchor, under)]

/-- A further stitch into the anchor. -/
def weaveShared (g : Fabric) (anchor : Nat) : Fabric :=
  g.weave .increase anchor [g.newest, anchor] [(g.newest, anchor)]

/-- A stitch over `middle` and `under`, which were taken from the outline. -/
def weaveOver (g : Fabric) (middle under : Nat) : Fabric :=
  let anchor := g.cursor.anchor?.getD middle
  g.weave .decrease under [g.newest, anchor, middle, under]
    [(g.newest, anchor), (anchor, middle), (middle, under)]

theorem workNext_eq_ok {g k : Fabric} {stitch : Stitch} (h : g.workNext stitch = .ok k) :
    ∃ under taken, g.take? = some (under, taken) ∧ k = taken.weaveNext stitch under := by
  unfold workNext at h
  cases htake : g.take? with
  | none => simp [htake] at h
  | some front =>
    obtain ⟨under, taken⟩ := front
    rw [htake] at h
    exact ⟨under, taken, rfl, (Except.ok.inj h).symm⟩

theorem workAnchor_eq (g : Fabric) (anchor : Nat) :
    g.workAnchor anchor =
      (if g.isRing anchor then g.markRing else g).weaveShared anchor := rfl

theorem workDecrease_eq_ok {g k : Fabric} (h : g.workDecrease = .ok k) :
    ∃ middle once under twice, g.take? = some (middle, once) ∧ once.take? = some (under, twice) ∧
      k = twice.weaveOver middle under := by
  unfold workDecrease at h
  cases hfirst : g.take? with
  | none => simp [hfirst] at h
  | some front =>
    obtain ⟨middle, once⟩ := front
    simp only [hfirst] at h
    cases hsecond : once.take? with
    | none => simp [hsecond] at h
    | some next =>
      obtain ⟨under, twice⟩ := next
      simp only [hsecond] at h
      exact ⟨middle, once, under, twice, rfl, hsecond, (Except.ok.inj h).symm⟩

/-- Finishing off empties the outline and changes nothing else but joints and counters. -/
theorem workFinish_eq (g : Fabric) :
    g.workFinish =
      { g with
        joints := g.joints ++
          (((endPairs g.outline).filter fun pair => pair.1 ≠ pair.2).map
            fun pair => (⟨pair.1, pair.2⟩ : Joint)).toArray
        outline := []
        consumed := g.consumed + g.outline.length
        cursor := { g.cursor with anchorSpent := true, ringWorked := false } } := by
  rw [workFinish, foldl_addJoint]

/-! ## Everything an instruction can do -/

/-- Whether the next increase has to move on from the anchor. -/
def MovesOn (g : Fabric) : Prop := g.cursor.anchor? = none ∨ g.cursor.anchorSpent = true

/-- What an instruction that succeeds makes of a fabric. -/
inductive Works (g : Fabric) : Instruction → Fabric → Prop
  | loop : Works g .loop g.workLoop
  | chain : Works g .chain g
  | single {under : Nat} {taken : Fabric} (take : g.take? = some (under, taken)) :
      Works g .single (taken.weaveNext .single under)
  | moveOn {under : Nat} {taken : Fabric} (moves : g.MovesOn)
      (take : g.take? = some (under, taken)) :
      Works g .increase (taken.weaveNext .increase under)
  | share {anchor : Nat} (shared : g.cursor.anchor? = some anchor)
      (fresh : g.cursor.anchorSpent = false) :
      Works g .increase ((if g.isRing anchor then g.markRing else g).weaveShared anchor)
  | decrease {middle under : Nat} {once twice : Fabric} (first : g.take? = some (middle, once))
      (second : once.take? = some (under, twice)) :
      Works g .decrease (twice.weaveOver middle under)
  | magicRing : Works g .magicRing { g with cursor := { g.cursor with anchorSpent := false } }
  | slip {newest oldest : Nat} (last : g.outline.getLast? = some newest)
      (first : g.outline.head? = some oldest) (apart : newest ≠ oldest) :
      Works g .slip (g.addEdge newest oldest 0)
  | join {node other : Nat} (hnode : node < g.size) (hother : other < g.size) :
      Works g (.join node other) (g.addJoint node other)
  | finishOff : Works g .finishOff g.workFinish

theorem works_of_workIncrease {g h : Fabric} (happly : g.workIncrease = .ok h) :
    Works g .increase h := by
  unfold workIncrease at happly
  split at happly
  · rename_i anchor hanchor hfresh
    rw [workAnchor_eq] at happly
    exact Except.ok.inj happly ▸ .share hanchor hfresh
  · rename_i hmoves
    obtain ⟨under, taken, htake, rfl⟩ := workNext_eq_ok happly
    refine .moveOn ?_ htake
    cases hanchor : g.cursor.anchor? with
    | none => exact Or.inl hanchor
    | some anchor =>
      cases hspent : g.cursor.anchorSpent with
      | false => exact absurd hspent (hmoves anchor hanchor)
      | true => exact Or.inr hspent

theorem works_of_workSlip {g h : Fabric} (happly : g.workSlip = .ok h) : Works g .slip h := by
  unfold workSlip at happly
  split at happly
  · rename_i newest oldest hlast hfirst
    split at happly
    · simp at happly
    · rename_i hapart
      exact Except.ok.inj happly ▸ .slip hlast hfirst hapart
  · simp at happly

theorem workJoin_of_lt {g : Fabric} {node other : Nat} (hnode : node < g.size)
    (hother : other < g.size) : g.workJoin node other = .ok (g.addJoint node other) := by
  simp only [workJoin, checkNode, if_pos hnode, if_pos hother]

theorem works_of_workJoin {g h : Fabric} {node other : Nat}
    (happly : g.workJoin node other = .ok h) : Works g (.join node other) h := by
  unfold workJoin checkNode at happly
  by_cases hnode : node < g.size
  · by_cases hother : other < g.size
    · simp only [if_pos hnode, if_pos hother] at happly
      exact Except.ok.inj happly ▸ .join hnode hother
    · simp [hnode, hother] at happly
  · simp [hnode] at happly

/-- The list of what instructions can do is complete. -/
theorem works_of_apply {g h : Fabric} {i : Instruction} (happly : g.apply i = .ok h) :
    Works g i h := by
  cases i with
  | loop => exact Except.ok.inj happly ▸ .loop
  | chain => exact Except.ok.inj happly ▸ .chain
  | single =>
    obtain ⟨under, taken, htake, rfl⟩ := workNext_eq_ok happly
    exact .single htake
  | increase => exact works_of_workIncrease happly
  | decrease =>
    obtain ⟨middle, once, under, twice, hfirst, hsecond, rfl⟩ := workDecrease_eq_ok happly
    exact .decrease hfirst hsecond
  | magicRing => exact Except.ok.inj happly ▸ .magicRing
  | slip => exact works_of_workSlip happly
  | join node other => exact works_of_workJoin happly
  | finishOff => exact Except.ok.inj happly ▸ .finishOff

end Fabric

end Crochet
