import Crochet.Proofs.Fabric.Footing
import Crochet.Proofs.Fabric.Growth
import Crochet.Proofs.Fabric.History
import Crochet.Proofs.Fabric.MeshSize

/-!
# Accounting for edges

A stitch is held by two edges, and by one more for each live stitch that it takes up.  A fabric
therefore has two edges of a stitch length for each stitch, and one for each time that a stitch was
taken up.  The counter of the stitches taken up also counts those that finishing off drains from the
outline, which hold nothing, so these have to be deducted.  All other edges are of no length, and
are the seams of the slip stitches.

The account is one of all that was done: `MadeBy done g` says that the deeds `done` made `g`, where
two fabrics that are joined bring their deeds with them.
-/

namespace Crochet

/-! ## Deeds -/

/-- How many live stitches a deed drains from the outline. -/
def Deed.drained (deed : Deed) : Nat :=
  if deed.instruction = .finishOff then deed.fabric.outline.length else 0

/-- The live stitches that deeds drain from the outline. -/
def drained (deeds : List Deed) : Nat := (deeds.map Deed.drained).sum

/-- The number of slip stitches among deeds. -/
def slips (deeds : List Deed) : Nat := deeds.countP fun deed => deed.instruction == .slip

@[simp] theorem drained_append (deeds more : List Deed) :
    drained (deeds ++ more) = drained deeds + drained more := by
  simp [drained]

@[simp] theorem slips_append (deeds more : List Deed) :
    slips (deeds ++ more) = slips deeds + slips more :=
  List.countP_append

/-- By how many edges of a stitch length a stitch may be held to older ones. -/
def Stitch.holds : Stitch → List Nat
  | loop => [0]
  | single => [3]
  | increase => [2, 3]
  | decrease => [4]
  | chain | magicRing | slip | join | finishOff => []

namespace Fabric

variable {g h other : Fabric} {i : Instruction} {done more : List Deed}

/-! ## Fabrics with their deeds -/

/-- The fabrics that can be made from nothing, with all that was done to make them. -/
inductive MadeBy : List Deed → Fabric → Prop
  | empty : MadeBy [] empty
  | call {done : List Deed} {g : Fabric} (made : MadeBy done g) (c : Call) :
      MadeBy (done ++ g.deedsOf c) (g.call c)
  | join {done more : List Deed} {g other : Fabric} (made : MadeBy done g)
      (madeOther : MadeBy more other) : MadeBy (done ++ more) (g.join other)

/-- A law that is kept by work and by joining holds of every fabric and what was done to make it. -/
theorem MadeBy.of_recorded {P : List Deed → Fabric → Prop} (recorded : Recorded P)
    (hempty : P [] .empty)
    (hjoin : ∀ {done more : List Deed} {g other : Fabric}, P done g → P more other →
      P (done ++ more) (g.join other)) (made : MadeBy done g) : P done g := by
  induction made with
  | empty => exact hempty
  | call _ c ih => exact recorded.call c ih
  | join _ _ ih ihOther => exact hjoin ih ihOther

theorem Reachable.call (reach : g.Reachable) (c : Call) : (g.call c).Reachable := by
  cases c with
  | apply i =>
    unfold Fabric.call
    dsimp only
    split
    · exact reach
    · rename_i happly
      exact reach.apply happly
  | append pattern => exact .append pattern reach

theorem MadeBy.reachable (made : MadeBy done g) : g.Reachable := by
  induction made with
  | empty => exact .empty
  | call _ c ih => exact ih.call c
  | join _ _ ih ihOther => exact .join ih ihOther

/-- Every reachable fabric was made by something. -/
theorem Reachable.exists_madeBy (reach : g.Reachable) : ∃ done, MadeBy done g := by
  induction reach with
  | empty => exact ⟨[], .empty⟩
  | @apply g h i _ works ih =>
    obtain ⟨done, made⟩ := ih
    have hcall : g.call (.apply i) = h := by simp only [Fabric.call, works]
    exact ⟨_, hcall ▸ made.call (.apply i)⟩
  | append pattern _ ih =>
    obtain ⟨done, made⟩ := ih
    exact ⟨_, made.call (.append pattern)⟩
  | join _ _ ih ihOther =>
    obtain ⟨done, made⟩ := ih
    obtain ⟨more, madeOther⟩ := ihOther
    exact ⟨_, made.join madeOther⟩

/-! ## What one instruction enters -/

/-- The number of edges of a stitch length that hold a node to older ones. -/
def heldBy (g : Fabric) (id : Nat) : Nat :=
  g.edges.countP fun edge => edge.source == id && edge.distance == 1

/-- What an instruction adds to edges and to the count of stitches taken up. -/
inductive Enters (g : Fabric) (i : Instruction) (h : Fabric) : Prop
  | stitch (ends : List Nat) (plain : i.isPlain = true)
      (edges : h.edges = g.edges ++ (ends.map fun e => (⟨g.size, e, 1⟩ : Edge)).toArray)
      (length : ends.length = 2 + g.need i) (consumed : h.consumed = g.consumed + g.need i)
  | seam (newest oldest : Nat) (slip : i = .slip)
      (edges : h.edges = g.edges.push ⟨newest, oldest, 0⟩) (consumed : h.consumed = g.consumed)
  | rest (others : i.isPlain = false ∧ i ≠ .slip) (edges : h.edges = g.edges)
      (consumed : h.consumed = g.consumed + Deed.drained ⟨g, i⟩)

theorem enters_of_apply (wf : g.WellFormed) (happly : g.apply i = .ok h) : g.Enters i h := by
  by_cases plain : i.isPlain = true
  · obtain ⟨t, f, taken, within, rfl, -⟩ := exists_stand wf plain happly
    have hedges := (taken.standsOn i.stitch within).edges
    obtain ⟨-, hconsumed, -⟩ := counts_of_apply plain happly
    -- How many ends the stitch has is known from the number of edges.
    refine .stitch (g.newest :: f.ends) plain hedges ?_ hconsumed
    have hsize := edges_of_apply wf plain happly
    simp only [hedges, Array.size_append, List.size_toArray, List.length_map] at hsize
    omega
  · cases works_of_apply happly with
    | slip _ _ apart =>
      rw [addEdge, if_neg apart]
      exact .seam _ _ rfl rfl rfl
    | finishOff =>
      rw [workFinish_eq]
      exact .rest ⟨rfl, by decide⟩ rfl rfl
    | join =>
      unfold addJoint
      split <;> exact .rest ⟨rfl, by simp⟩ rfl rfl
    | loop | chain | magicRing => exact .rest ⟨rfl, by decide⟩ rfl rfl
    | single | moveOn | share | decrease => exact absurd rfl plain

theorem countP_append_map (edges : Array Edge) (id : Nat) (ends : List Nat) (p : Edge → Bool) :
    (edges ++ (ends.map fun e => (⟨id, e, 1⟩ : Edge)).toArray).countP p =
      edges.countP p + ends.countP fun e => p ⟨id, e, 1⟩ := by
  simp [List.countP_map, Function.comp_def]

/-- A plain stitch is held by as many edges as its kind allows. -/
theorem need_mem_holds (g : Fabric) (plain : i.isPlain = true) :
    2 + g.need i ∈ i.stitch.holds := by
  cases i with
  | single => simp [need_single, Instruction.stitch, Stitch.holds]
  | decrease => simp [need_decrease, Instruction.stitch, Stitch.holds]
  | increase =>
    unfold need
    split <;> decide
  | loop | chain | magicRing | slip | join | finishOff => simp [Instruction.isPlain] at plain

/-- The stitches of a fabric are counted by their origins. -/
theorem countP_stitches (g : Fabric) :
    (g.nodes.countP fun node => !node.isRing) =
      g.origins.countP fun origin => origin.1 != .loop := by
  rw [origins, List.countP_map, ← Array.countP_toList]
  rfl

theorem countP_stitches_of_apply (happly : g.apply i = .ok h) :
    (h.nodes.countP fun node => !node.isRing) =
      (g.nodes.countP fun node => !node.isRing) + if i.isPlain then 1 else 0 := by
  rw [countP_stitches, (grows_of_apply happly).origins, List.countP_append, ← countP_stitches]
  cases i <;> rfl

/-- An instruction does not change by how many edges an older node is held. -/
theorem Enters.heldBy_older (enters : g.Enters i h) {id : Nat} (hid : id ≠ g.size) :
    h.heldBy id = g.heldBy id := by
  cases enters with
  | stitch ends _ edges _ _ =>
    have hnone : ends.countP (fun e => g.size == id && (1 : Nat) == 1) = 0 :=
      List.countP_eq_zero.2 fun e _ => by simp [Ne.symm hid]
    rw [heldBy, edges, countP_append_map]
    exact congrArg (g.heldBy id + ·) hnone
  | seam newest oldest _ edges _ =>
    rw [heldBy, edges, Array.countP_push]
    simp [heldBy]
  | rest _ edges _ => rw [heldBy, edges, heldBy]

/-- No edge starts at a node that is still to be made. -/
theorem WellFormed.heldBy_size (wf : g.WellFormed) : g.heldBy g.size = 0 := by
  refine Array.countP_eq_zero.2 fun edge hmem => ?_
  have hlt := (wf.edge_lt edge hmem).2
  simp [Nat.ne_of_lt hlt]

/-- A stitch is held by the edges that its instruction enters. -/
theorem Enters.heldBy_newest (enters : g.Enters i h) (wf : g.WellFormed)
    (makes : i.stitch.makesNode = true) : h.heldBy g.size ∈ i.stitch.holds := by
  cases enters with
  | stitch ends plain edges length _ =>
    have hall : ends.countP (fun e => g.size == g.size && (1 : Nat) == 1) = ends.length :=
      List.countP_eq_length.2 fun e _ => by simp
    have hheld : h.heldBy g.size = g.heldBy g.size + ends.length := by
      rw [heldBy, edges, countP_append_map]
      exact congrArg (g.heldBy g.size + ·) hall
    rw [hheld, wf.heldBy_size, Nat.zero_add, length]
    exact need_mem_holds g plain
  | seam newest oldest slip _ _ =>
    subst slip
    exact absurd makes (by decide)
  | rest others edges _ =>
    have hloop : i = .loop := by
      cases i <;> simp_all [Instruction.isPlain, Instruction.stitch, Stitch.makesNode]
    rw [heldBy, edges, ← heldBy, wf.heldBy_size, hloop]
    decide

/-- Each instruction balances what it holds and drains with what it makes and counts. -/
theorem Enters.holds (enters : g.Enters i h) :
    (h.edges.countP fun edge => edge.distance == 1) + Deed.drained ⟨g, i⟩ + g.consumed =
      (g.edges.countP fun edge => edge.distance == 1) + (2 * if i.isPlain then 1 else 0) +
        h.consumed := by
  cases enters with
  | stitch ends plain edges length consumed =>
    have hall : ends.countP (fun _ => (1 : Nat) == 1) = ends.length :=
      List.countP_eq_length.2 fun e _ => rfl
    have hdrained : Deed.drained ⟨g, i⟩ = 0 := by
      rw [Deed.drained, if_neg]
      rintro rfl
      exact absurd plain (by decide)
    rw [edges, countP_append_map, hall, consumed, hdrained, if_pos plain]
    omega
  | seam newest oldest slip edges consumed =>
    subst slip
    rw [edges, Array.countP_push, consumed]
    rfl
  | rest others edges consumed =>
    rw [edges, consumed, others.1]
    simp only [Bool.false_eq_true, if_false]
    omega

/-- A slip stitch enters a seam, and nothing else does. -/
theorem Enters.seams (enters : g.Enters i h) :
    (h.edges.countP fun edge => edge.distance == 0) =
      (g.edges.countP fun edge => edge.distance == 0) + slips [⟨g, i⟩] := by
  have hslips : i ≠ .slip → slips [⟨g, i⟩] = 0 := fun hne => by simp [slips, hne]
  cases enters with
  | stitch ends plain edges _ _ =>
    have hnone : ends.countP (fun _ => (1 : Nat) == 0) = 0 := List.countP_eq_zero.2 fun e _ => nofun
    rw [edges, countP_append_map, hnone, hslips]
    rintro rfl
    exact absurd plain (by decide)
  | seam newest oldest slip edges _ =>
    subst slip
    rw [edges, Array.countP_push]
    rfl
  | rest others edges _ => rw [edges, hslips others.2, Nat.add_zero]

/-- An instruction enters edges of a stitch length or of none. -/
theorem Enters.distance (enters : g.Enters i h)
    (before : ∀ edge ∈ g.edges, edge.distance = 1 ∨ edge.distance = 0) :
    ∀ edge ∈ h.edges, edge.distance = 1 ∨ edge.distance = 0 := by
  cases enters with
  | stitch ends _ edges _ _ =>
    rw [edges, Array.forall_mem_append]
    refine ⟨before, fun edge hmem => ?_⟩
    obtain ⟨e, -, rfl⟩ := List.mem_map.1 (List.mem_toArray.1 hmem)
    exact Or.inl rfl
  | seam newest oldest _ edges _ =>
    rw [edges]
    intro edge hmem
    rcases Array.mem_push.1 hmem with hold | rfl
    · exact before edge hold
    · exact Or.inr rfl
  | rest _ edges _ =>
    rw [edges]
    exact before

/-! ## Two fabrics beside each other -/

theorem heldBy_join_left {id : Nat} (hid : id < g.size) (other : Fabric) :
    (g.join other).heldBy id = g.heldBy id := by
  have hnone : (other.edges.map (Edge.shift g.size)).countP (fun edge =>
      edge.source == id && edge.distance == 1) = 0 := by
    rw [Array.countP_eq_zero, Array.forall_mem_map]
    intro edge _
    have hne : edge.source + g.size ≠ id := by omega
    simp [Edge.shift, hne]
  rw [heldBy, Fabric.join, Array.countP_append, hnone]
  rfl

theorem WellFormed.heldBy_join_right (wf : g.WellFormed) (other : Fabric) (k : Nat) :
    (g.join other).heldBy (g.size + k) = other.heldBy k := by
  have hnone : g.edges.countP (fun edge =>
      edge.source == g.size + k && edge.distance == 1) = 0 := by
    refine Array.countP_eq_zero.2 fun edge hmem => ?_
    have hlt := (wf.edge_lt edge hmem).2
    have hne : edge.source ≠ g.size + k := by omega
    simp [hne]
  have hshift : (fun edge : Edge => edge.source == g.size + k && edge.distance == 1) ∘
      Edge.shift g.size = fun edge => edge.source == k && edge.distance == 1 := by
    funext edge
    have hiff : (edge.source + g.size == g.size + k) = (edge.source == k) := by
      rw [Bool.eq_iff_iff, beq_iff_eq, beq_iff_eq]
      omega
    simp only [Function.comp_apply, Edge.shift, hiff]
  rw [heldBy, Fabric.join, Array.countP_append, hnone, Array.countP_map, hshift, Nat.zero_add]
  rfl

/-! ## The account -/

/-- Whether the edges of a fabric are accounted for by its stitches and by the deeds that made
it. -/
structure Accounted (done : List Deed) (g : Fabric) : Prop extends WellFormed g where
  holds : (g.edges.countP fun edge => edge.distance == 1) + drained done =
    2 * (g.nodes.countP fun node => !node.isRing) + g.consumed
  seams : (g.edges.countP fun edge => edge.distance == 0) = slips done
  distance : ∀ edge ∈ g.edges, edge.distance = 1 ∨ edge.distance = 0
  held_by : ∀ {id : Nat} {node : Node}, g.node? id = some node → g.heldBy id ∈ node.stitch.holds

namespace Accounted

theorem empty : Accounted [] Fabric.empty where
  toWellFormed := .empty
  holds := rfl
  seams := rfl
  distance := nofun
  held_by hnode := by simp [node?, Fabric.empty] at hnode

theorem congr (accounted : Accounted done g) (wf : h.WellFormed) (hnodes : h.nodes = g.nodes)
    (hedges : h.edges = g.edges) (hconsumed : h.consumed = g.consumed) : Accounted done h where
  toWellFormed := wf
  holds := by
    rw [hnodes, hedges, hconsumed]
    exact accounted.holds
  seams := by
    rw [hedges]
    exact accounted.seams
  distance := by
    rw [hedges]
    exact accounted.distance
  held_by hnode := by
    rw [node?, hnodes] at hnode
    rw [heldBy, hedges]
    exact accounted.held_by hnode

theorem apply (accounted : Accounted done g) (happly : g.apply i = .ok h) :
    Accounted (done ++ [⟨g, i⟩]) h := by
  have wf := accounted.toWellFormed
  have enters := enters_of_apply wf happly
  refine { wf.apply happly with
    holds := ?_, seams := ?_, distance := enters.distance accounted.distance, held_by := ?_ }
  · have hdrained : drained [⟨g, i⟩] = Deed.drained ⟨g, i⟩ := by simp [drained]
    have hcount := countP_stitches_of_apply happly
    have hbefore := accounted.holds
    have hholds := enters.holds
    rw [drained_append, hdrained]
    omega
  · rw [slips_append, ← accounted.seams]
    exact enters.seams
  · intro id node hnode
    rcases (grows_of_apply happly).origin_of_node? hnode with ⟨old, hold, hsame⟩ | ⟨k, rfl, hnew⟩
    · have hid := Nat.ne_of_lt (lt_size_of_node? hold)
      have hstitch : old.stitch = node.stitch := congrArg Prod.fst hsame
      rw [enters.heldBy_older hid, ← hstitch]
      exact accounted.held_by hold
    · by_cases makes : i.stitch.makesNode = true
      · rw [if_pos makes] at hnew
        obtain ⟨hk, horigin⟩ := List.getElem?_eq_some_iff.1 hnew
        obtain rfl : k = 0 := Nat.lt_one_iff.1 hk
        have hstitch : i.stitch = node.stitch := congrArg Prod.fst horigin
        rw [← hstitch]
        exact enters.heldBy_newest wf makes
      · rw [if_neg makes] at hnew
        simp at hnew

/-- Two fabrics beside each other share no edge, and are accounted for by the deeds of both. -/
theorem join (accounted : Accounted done g) (accountedOther : Accounted more other) :
    Accounted (done ++ more) (g.join other) := by
  have hedges : (g.join other).edges = g.edges ++ other.edges.map (Edge.shift g.size) := rfl
  have hnodes : (g.join other).nodes =
      g.nodes ++ other.nodes.map (Node.shift g.size g.roundsUsed) := rfl
  refine { accounted.toWellFormed.join accountedOther.toWellFormed with
    holds := ?_, seams := ?_, distance := ?_, held_by := ?_ }
  · have hcount : (g.join other).consumed = g.consumed + other.consumed := rfl
    have hleft := accounted.holds
    have hright := accountedOther.holds
    have hedge : (fun edge : Edge => edge.distance == 1) ∘ Edge.shift g.size =
      fun edge => edge.distance == 1 := rfl
    have hnode : (fun node : Node => !node.isRing) ∘ Node.shift g.size g.roundsUsed =
      fun node => !node.isRing := rfl
    rw [hedges, hnodes, hcount, Array.countP_append, Array.countP_append, Array.countP_map,
      Array.countP_map, hedge, hnode, drained_append]
    omega
  · have hedge : (fun edge : Edge => edge.distance == 0) ∘ Edge.shift g.size =
      fun edge => edge.distance == 0 := rfl
    rw [hedges, Array.countP_append, Array.countP_map, hedge, slips_append, accounted.seams,
      accountedOther.seams]
  · rw [hedges, Array.forall_mem_append, Array.forall_mem_map]
    exact ⟨accounted.distance, accountedOther.distance⟩
  · intro id node hnode
    rcases getElem?_join hnode with ⟨hid, hold⟩ | ⟨k, old, rfl, hold, rfl⟩
    · rw [heldBy_join_left hid other]
      exact accounted.held_by hold
    · rw [accounted.heldBy_join_right]
      have hheld := accountedOther.held_by hold
      exact hheld

end Accounted

theorem recorded_accounted : Recorded Accounted where
  apply := Accounted.apply
  beginRound length accounted := accounted.congr (accounted.beginRound length) rfl rfl rfl
  endRound {_ g} accounted :=
    accounted.congr accounted.endRound (nodes_endRound g).1 (edges_endRound g).1
      (nodes_endRound g).2

/-- **The edges of a fabric are accounted for by its stitches and by what was done.**  There are two
edges of a stitch length for each stitch, and one for each time that a stitch was taken up, apart
from those that finishing off drained.  All other edges are the seams of slip stitches and have no
length.  A ring is held to nothing, a single stitch by three edges, an increase by two or three, and
a decrease by four. -/
theorem edges_accounted (reach : g.Reachable) : (∃ done, MadeBy done g) ∧
    ∀ done, MadeBy done g →
      ((g.edges.countP fun edge => edge.distance == 1) + drained done =
        2 * (g.nodes.countP fun node => !node.isRing) + g.consumed) ∧
      (∀ edge ∈ g.edges, edge.distance = 1 ∨ edge.distance = 0) ∧
      (g.edges.countP fun edge => edge.distance == 0) = slips done ∧
      ∀ id node, g.node? id = some node → g.heldBy id ∈ node.stitch.holds := by
  refine ⟨reach.exists_madeBy, fun done made => ?_⟩
  have accounted := made.of_recorded recorded_accounted .empty .join
  exact ⟨accounted.holds, accounted.distance, accounted.seams, fun _ _ => accounted.held_by⟩

/-- Two discs with a seam each, side by side and finished off: sixteen edges of a stitch length and
two seams, with six stitches drained. -/
theorem edges_accounted_discs : ∃ done g, g.Reachable ∧ MadeBy done g ∧ drained done = 6 ∧
    slips done = 2 ∧ (g.nodes.countP fun node => !node.isRing) = 6 ∧ g.consumed = 10 ∧
    (g.edges.countP fun edge => edge.distance == 1) + 6 = 2 * 6 + 10 ∧
    (g.edges.countP fun edge => edge.distance == 0) = 2 ∧ g.heldBy 2 ∈ Stitch.increase.holds := by
  have disc := (MadeBy.empty.call (.append ⟨[[.loop], [.single, .increase, .single]]⟩)).call
    (.apply .slip)
  obtain ⟨done, g, made, hdrained, hslips, hstitches, hconsumed, hnode⟩ : ∃ done g, MadeBy done g ∧
      drained done = 6 ∧ slips done = 2 ∧ (g.nodes.countP fun node => !node.isRing) = 6 ∧
      g.consumed = 10 ∧ g.node? 2 = some ⟨2, 1, 3, 0, .increase, 1, ⟨1, 3⟩⟩ := by
    refine ⟨_, _, (disc.join disc).call (.apply .finishOff), ?_⟩
    decide +kernel
  obtain ⟨hheld, -, hseams, hkinds⟩ := (edges_accounted made.reachable).2 done made
  rw [hdrained, hstitches, hconsumed] at hheld
  rw [hslips] at hseams
  exact ⟨done, g, made.reachable, made, hdrained, hslips, hstitches, hconsumed, hheld, hseams,
    hkinds 2 _ hnode⟩

end Fabric

end Crochet
