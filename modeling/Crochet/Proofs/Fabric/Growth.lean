import Crochet.Proofs.Fabric.Seeds
import Mathlib.Data.Prod.Lex

/-!
# What a pattern adds

Work only ever adds to a fabric: nothing that is there is taken away or changed, except that the
node made last is led on to the next one (`Grows`).  What is added is fixed by the pattern alone.
`Pattern.origins` lists, for each instruction that makes a node, its stitch, its round and how far
the round had come, and these are the new nodes in the order of making (`grows_of_workRounds`).

The nodes of a fabric that was worked without a fault therefore come in the order of their rounds,
and within a round in the order of their shares.  A stitch that is worked outside of a pattern has
as its share the number of stitches that its open round has so far, out of one more.
-/

namespace Crochet

/-- The share as a fraction. -/
def Share.value (s : Share) : ℚ := s.made / s.total

/-- Where a node comes from: its stitch, the round it was made in, and how far that had come. -/
def Node.origin (node : Node) : Stitch × Nat × Share := (node.stitch, node.round, node.progress)

/-- The origins of the stitches that a round with a number makes. -/
def Round.origins (number : Nat) (round : Round) : List (Stitch × Nat × Share) :=
  (round.filter fun i => i.stitch.makesNode).mapIdx fun made i =>
    (i.stitch, number, ⟨made, round.length⟩)

/-- The origins of the stitches that a pattern makes if its first round has a number. -/
def Pattern.origins (first : Nat) (p : Pattern) : List (Stitch × Nat × Share) :=
  (p.rounds.mapIdx fun k round => Round.origins (first + k) round).flatten

/-- What comes before as a share is less as a fraction. -/
theorem Share.value_lt {s t : Share} (hs : 0 < s.total) (ht : 0 < t.total) (before : s.Before t) :
    s.value < t.value := by
  rw [value, value, div_lt_div_iff₀ (by exact_mod_cast hs) (by exact_mod_cast ht)]
  exact_mod_cast before

/-- A round never gets to its end before its last stitch. -/
theorem Round.made_lt_total {number : Nat} {round : Round} {origin : Stitch × Nat × Share}
    (hmem : origin ∈ Round.origins number round) : origin.2.2.made < origin.2.2.total := by
  obtain ⟨made, hmade, rfl⟩ := List.mem_mapIdx.1 hmem
  exact Nat.lt_of_lt_of_le hmade (List.length_filter_le _ _)

namespace Fabric

variable {g h k : Fabric} {i : Instruction}

/-! ## Growing -/

/-- The origins of the nodes of a fabric. -/
def origins (g : Fabric) : List (Stitch × Nat × Share) := g.nodes.toList.map Node.origin

/-- Whether a fabric is another one with more added to it: nodes of the given origins, and maybe
edges, joints and faces.  An older node stays as it is, but the newest one may lead on. -/
structure Grows (g h : Fabric) (added : List (Stitch × Nat × Share)) : Prop where
  edges : g.edges.toList <+: h.edges.toList
  joints : g.joints.toList <+: h.joints.toList
  faces : g.faces.toList <+: h.faces.toList
  origins : h.origins = g.origins ++ added
  kept : ∀ {i : Nat} {node : Node}, g.node? i = some node →
    ∃ next, h.node? i = some { node with next := next } ∧ (i ≠ g.newest → next = node.next)

theorem length_origins (g : Fabric) : g.origins.length = g.size := by simp [origins, size]

theorem getElem?_origins (g : Fabric) (id : Nat) :
    g.origins[id]? = (g.node? id).map Node.origin := by
  rw [origins, List.getElem?_map, Array.getElem?_toList, node?]

namespace Grows

variable {added more : List (Stitch × Nat × Share)}

theorem size_eq (grows : g.Grows h added) : h.size = g.size + added.length := by
  rw [← length_origins, grows.origins, List.length_append, length_origins]

/-- Where no node is made, none is changed. -/
theorem of_nodes (hnodes : h.nodes = g.nodes) (hedges : g.edges.toList <+: h.edges.toList)
    (hjoints : g.joints.toList <+: h.joints.toList) (hfaces : g.faces.toList <+: h.faces.toList) :
    g.Grows h [] where
  edges := hedges
  joints := hjoints
  faces := hfaces
  origins := by rw [Fabric.origins, hnodes, List.append_nil, Fabric.origins]
  kept hnode := ⟨_, by rw [node?, hnodes]; exact hnode, fun _ => rfl⟩

/-- What is about the outline and the cursor alone adds nothing. -/
theorem of_eq (hnodes : h.nodes = g.nodes) (hedges : h.edges = g.edges)
    (hjoints : h.joints = g.joints) (hfaces : h.faces = g.faces) : g.Grows h [] :=
  of_nodes hnodes (by rw [hedges]) (by rw [hjoints]) (by rw [hfaces])

theorem trans (first : g.Grows h added) (second : h.Grows k more) :
    g.Grows k (added ++ more) where
  edges := first.edges.trans second.edges
  joints := first.joints.trans second.joints
  faces := first.faces.trans second.faces
  origins := by rw [second.origins, first.origins, List.append_assoc]
  kept := by
    intro i node hnode
    obtain ⟨next, hmiddle, hsame⟩ := first.kept hnode
    obtain ⟨next', hlast, hsame'⟩ := second.kept hmiddle
    refine ⟨next', hlast, fun hi => ?_⟩
    have hi' : i ≠ h.newest := by
      have hsize := first.size_eq
      have hlt := lt_size_of_node? hnode
      unfold newest at hi ⊢
      omega
    rw [hsame' hi', hsame hi]

/-- A node that is made after the newest one adds its origin. -/
theorem of_pushNode {stitch : Stitch} {last under : Nat} (hlast : stitch ≠ .loop → last = g.newest)
    (hnodes : h.nodes = (g.pushNode stitch last under).nodes)
    (hedges : g.edges.toList <+: h.edges.toList) (hjoints : g.joints.toList <+: h.joints.toList)
    (hfaces : g.faces.toList <+: h.faces.toList) :
    g.Grows h [(stitch, g.cursor.round, g.share)] where
  edges := hedges
  joints := hjoints
  faces := hfaces
  origins := by
    have hmap := map_nodes_pushNode g stitch last under Node.origin fun _ _ => rfl
    rw [Fabric.origins, hnodes, ← Array.toList_map, hmap, Array.toList_push, Array.toList_map]
    rfl
  kept := by
    intro i node hnode
    have hi := lt_size_of_node? hnode
    have hpush := node?_pushNode g stitch last under i
    rw [if_neg (Nat.ne_of_lt hi), hnode, Option.map_some] at hpush
    rw [node?, hnodes]
    by_cases hleads : i = last ∧ stitch ≠ .loop ∧ g.isRing last = false
    · rw [if_pos hleads] at hpush
      exact ⟨g.size, hpush, fun hne => absurd (hleads.1.trans (hlast hleads.2.1)) hne⟩
    · rw [if_neg hleads] at hpush
      exact ⟨node.next, hpush, fun _ => rfl⟩

theorem weave (g : Fabric) (stitch : Stitch) (under : Nat) (ends : List Nat)
    (corners : List (Nat × Nat)) :
    g.Grows (g.weave stitch under ends corners) [(stitch, g.cursor.round, g.share)] := by
  rw [weave_eq]
  exact of_pushNode (fun _ => rfl) rfl (by simp) List.prefix_rfl (by simp)

/-- A stitch is woven into the round in hand, whatever live stitches were taken before. -/
theorem weave_of_taken (taken : g.Taken h) (stitch : Stitch) (under : Nat) (ends : List Nat)
    (corners : List (Nat × Nat)) :
    g.Grows (h.weave stitch under ends corners) [(stitch, g.cursor.round, g.share)] := by
  have hsame : g.Grows h [] := of_eq taken.nodes taken.edges taken.joints taken.faces
  have hweave := hsame.trans (weave h stitch under ends corners)
  rwa [taken.round, taken.share_eq, List.nil_append] at hweave

/-- A node of the grown fabric has the origin of an older one, or is one of those added. -/
theorem origin_of_node? (grows : g.Grows h added) {id : Nat} {node : Node}
    (hnode : h.node? id = some node) :
    (∃ old, g.node? id = some old ∧ old.origin = node.origin) ∨
      ∃ k, id = g.size + k ∧ added[k]? = some node.origin := by
  have horigin : (g.origins ++ added)[id]? = some node.origin := by
    rw [← grows.origins, getElem?_origins, hnode, Option.map_some]
  rcases Nat.lt_or_ge id g.size with hid | hid
  · rw [List.getElem?_append_left (by rwa [length_origins]), getElem?_origins] at horigin
    exact Or.inl (Option.map_eq_some_iff.1 horigin)
  · rw [List.getElem?_append_right (by rwa [length_origins]), length_origins] at horigin
    exact Or.inr ⟨id - g.size, by omega, horigin⟩

end Grows

/-- An instruction adds a node exactly if its stitch makes one. -/
theorem grows_of_apply (happly : g.apply i = .ok h) :
    g.Grows h (if i.stitch.makesNode then [(i.stitch, g.cursor.round, g.share)] else []) := by
  by_cases plain : i.isPlain = true
  · obtain ⟨t, under, ends, corners, taken, -, rfl⟩ := exists_weave_of_apply plain happly
    rw [if_pos (Instruction.makesNode_of_isPlain plain).1]
    exact .weave_of_taken taken ..
  · cases works_of_apply happly with
    | loop =>
      exact .of_pushNode (fun hloop => absurd rfl hloop) rfl List.prefix_rfl List.prefix_rfl
        List.prefix_rfl
    | chain | magicRing => exact .of_eq rfl rfl rfl rfl
    | slip _ _ apart =>
      rw [addEdge, if_neg apart]
      exact .of_nodes rfl (by simp) List.prefix_rfl List.prefix_rfl
    | join =>
      show g.Grows _ []
      unfold addJoint
      split
      · exact .of_eq rfl rfl rfl rfl
      · exact .of_nodes rfl List.prefix_rfl (by simp) List.prefix_rfl
    | finishOff =>
      rw [workFinish_eq]
      exact .of_nodes rfl List.prefix_rfl (by simp) List.prefix_rfl
    | single | moveOn | share | decrease => exact absurd rfl plain

/-! ## Rounds and patterns -/

/-- The origins of the stitches that instructions make in the course of a round. -/
theorem grows_of_applyAll {instructions : List Instruction}
    (hall : g.applyAll instructions = .ok h) :
    g.Grows h ((instructions.filter fun i => i.stitch.makesNode).mapIdx fun made i =>
      (i.stitch, g.cursor.round,
        ⟨g.cursor.made + made, max g.cursor.roundLength (g.cursor.made + made + 1)⟩)) ∧
      h.cursor.round = g.cursor.round := by
  induction instructions generalizing g with
  | nil =>
    obtain rfl := Except.ok.inj hall
    exact ⟨.of_eq rfl rfl rfl rfl, rfl⟩
  | cons i rest ih =>
    obtain ⟨middle, happly, hrest⟩ := exists_of_applyAll_cons hall
    have hfirst := grows_of_apply happly
    have hdates := dates_of_apply happly
    obtain ⟨hothers, hround⟩ := ih hrest
    -- The stitches that follow count on from the one that was made, if one was.
    by_cases hmakes : i.stitch.makesNode = true
    · rw [if_pos hmakes] at hfirst hdates
      rw [hdates.round] at hround hothers
      rw [hdates.length, hdates.made] at hothers
      simp only [List.filter_cons, hmakes, if_true, List.mapIdx_cons]
      refine ⟨?_, hround⟩
      have hboth := hfirst.trans hothers
      simpa [share, Nat.add_comm, Nat.add_left_comm] using hboth
    · rw [if_neg hmakes] at hfirst hdates
      rw [hdates.round] at hround hothers
      rw [hdates.length, hdates.made] at hothers
      simp only [List.filter_cons, hmakes]
      exact ⟨hfirst.trans hothers, hround⟩

theorem grows_endRound (g : Fabric) : g.Grows g.endRound [] := by
  rw [endRound, retireRing_eq]
  split <;> exact .of_eq rfl rfl rfl rfl

/-- A round adds its stitches, and is counted. -/
theorem grows_of_workRound {index : Nat} {round : Round}
    (hwork : g.workRound index round = .ok h) :
    g.Grows h (Round.origins g.roundsUsed round) ∧ h.roundsUsed = g.roundsUsed + 1 := by
  obtain ⟨k, hall, rfl⟩ := exists_of_workRound hwork
  obtain ⟨hgrows, hround⟩ := grows_of_applyAll hall
  have hbegin : g.Grows (g.beginRound round.length) [] := .of_eq rfl rfl rfl rfl
  -- A round has no more stitches than instructions, so none is made after its end.
  have horigins : Round.origins g.roundsUsed round =
      (round.filter fun i => i.stitch.makesNode).mapIdx fun made i =>
        (i.stitch, g.roundsUsed, ⟨0 + made, max round.length (0 + made + 1)⟩) := by
    refine List.ext_getElem (by simp [Round.origins]) fun n hn _ => ?_
    rw [Round.origins, List.length_mapIdx] at hn
    have hn' : n + 1 ≤ round.length := Nat.lt_of_lt_of_le hn (List.length_filter_le _ round)
    simp [Round.origins, Nat.max_eq_left hn']
  refine ⟨?_, ?_⟩
  · have hall := (hbegin.trans hgrows).trans (grows_endRound k)
    rw [List.nil_append, List.append_nil] at hall
    rw [horigins]
    exact hall
  · have hused : k.endRound.roundsUsed = k.endRound.cursor.round := rfl
    rw [hused, round_endRound, hround]
    rfl

/-- **A pattern adds its stitches.** -/
theorem grows_of_workRounds {index : Nat} {rounds : List Round}
    (hwork : g.workRounds index rounds = .ok h) :
    g.Grows h (Pattern.origins g.roundsUsed ⟨rounds⟩) := by
  induction rounds generalizing g index with
  | nil =>
    obtain rfl := Except.ok.inj hwork
    exact .of_eq rfl rfl rfl rfl
  | cons round rest ih =>
    obtain ⟨middle, hround, hrest⟩ := exists_of_workRounds_cons hwork
    obtain ⟨hfirst, hused⟩ := grows_of_workRound hround
    have hboth := hfirst.trans (ih hrest)
    simpa [Pattern.origins, hused, Nat.add_assoc, Nat.add_comm 1] using hboth

/-! ## Fabrics that were worked -/

/-- The rounds of the nodes rise in the order of making, and the cursor counts the nodes of the
round in hand. -/
structure Paced (g : Fabric) : Prop extends Counted g where
  rising : g.dates.Pairwise fun d d' => d.1 ≤ d'.1
  made_eq : g.cursor.made = g.dates.countP fun d => d.1 == g.cursor.round

namespace Paced

theorem empty : Fabric.empty.Paced where
  toCounted := .empty
  rising := .nil
  made_eq := rfl

/-- No node is of a round after the one in hand. -/
theorem le_round (paced : g.Paced) : ∀ d ∈ g.dates, d.1 ≤ g.cursor.round := by
  intro d hd
  have hlt := paced.counted d hd
  unfold roundsUsed at hlt
  split at hlt <;> omega

theorem apply (paced : g.Paced) (happly : g.apply i = .ok h) : h.Paced := by
  have counted := paced.toCounted.apply happly
  have hdates := dates_of_apply happly
  split at hdates
  · refine { counted with rising := ?_, made_eq := ?_ }
    · rw [hdates.dates, List.pairwise_append]
      refine ⟨paced.rising, List.pairwise_singleton _ _, fun d hd d' hd' => ?_⟩
      obtain rfl := List.mem_singleton.1 hd'
      exact paced.le_round d hd
    · rw [hdates.made, hdates.dates, hdates.round, List.countP_append, ← paced.made_eq]
      simp
  · refine { counted with rising := ?_, made_eq := ?_ }
    · rw [hdates.dates]
      exact paced.rising
    · rw [hdates.made, hdates.dates, hdates.round]
      exact paced.made_eq

/-- Where a round begins or ends, it has no stitch yet. -/
theorem turn (paced : g.Paced) (hnodes : h.nodes = g.nodes) (hmade : h.cursor.made = 0)
    (hround : g.roundsUsed ≤ h.cursor.round) : h.Paced := by
  have hdates : h.dates = g.dates := by rw [dates, hnodes, dates]
  refine { paced.toCounted.turn hnodes hround with rising := ?_, made_eq := ?_ }
  · rw [hdates]
    exact paced.rising
  · rw [hmade, hdates, eq_comm, List.countP_eq_zero]
    intro d hd
    have hlt := paced.counted d hd
    simp only [beq_iff_eq]
    omega

end Paced

theorem steps_paced : Steps fun _ g => g.Paced where
  apply paced happly := paced.apply happly
  beginRound _ paced := paced.turn rfl rfl (Nat.le_refl _)
  endRound {_ g} paced := paced.turn (nodes_endRound g).1 rfl (roundsUsed_le_endRound g)

theorem WorkedBy.paced {done : List Instruction} (worked : WorkedBy done g) : g.Paced :=
  worked.of_steps steps_paced .empty

/-- A pattern leaves no round open. -/
theorem roundLength_of_workRounds {index : Nat} {rounds : List Round}
    (hwork : g.workRounds index rounds = .ok h) (hclosed : g.cursor.roundLength = 0) :
    h.cursor.roundLength = 0 := by
  induction rounds generalizing g index with
  | nil => exact Except.ok.inj hwork ▸ hclosed
  | cons round rest ih =>
    obtain ⟨middle, hround, hrest⟩ := exists_of_workRounds_cons hwork
    obtain ⟨k, -, rfl⟩ := exists_of_workRound hround
    exact ih hrest rfl

/-- Between patterns no round of a pattern is in hand. -/
theorem WorkedBy.roundLength_eq_zero {done : List Instruction} (worked : WorkedBy done g) :
    g.cursor.roundLength = 0 := by
  induction worked with
  | empty => rfl
  | apply _ works ih =>
    have hdates := dates_of_apply works
    split at hdates
    · exact hdates.length.trans ih
    · exact hdates.length.trans ih
  | append _ works ih => exact roundLength_of_workRounds works ih

/-- The nodes of a fabric that was worked come in the order of their rounds and shares. -/
theorem WorkedBy.lt_of_lt {done : List Instruction} (worked : WorkedBy done g) {i j : Nat}
    {a b : Node} (ha : g.node? i = some a) (hb : g.node? j = some b) (hij : i < j) :
    toLex (a.round, a.progress.value) < toLex (b.round, b.progress.value) := by
  have paced := worked.paced
  obtain ⟨hi, hdate⟩ := getElem_dates ha
  obtain ⟨hj, hdate'⟩ := getElem_dates hb
  have hle := List.pairwise_iff_getElem.1 paced.rising i j hi hj hij
  have hbefore := List.pairwise_iff_getElem.1 paced.apart i j hi hj hij
  have hproper := paced.proper _ (List.getElem_mem hi)
  have hproper' := paced.proper _ (List.getElem_mem hj)
  rw [hdate] at hle hbefore hproper
  rw [hdate'] at hle hbefore hproper'
  rcases Nat.lt_or_eq_of_le hle with hlt | heq
  · exact Prod.Lex.toLex_lt_toLex.2 (Or.inl hlt)
  · exact Prod.Lex.toLex_lt_toLex.2 (Or.inr ⟨heq, Share.value_lt (Nat.zero_lt_of_lt hproper)
      (Nat.zero_lt_of_lt hproper') (hbefore heq)⟩)

/-- A stitch that is worked outside of a pattern has the share of an open round. -/
theorem WorkedBy.origin_of_apply {done : List Instruction} (worked : WorkedBy done g)
    (makes : i.stitch.makesNode = true) (works : g.apply i = .ok h) :
    (h.node? g.size).map Node.origin = some (i.stitch, g.cursor.round,
      ⟨g.nodes.countP fun node => node.round == g.cursor.round,
        (g.nodes.countP fun node => node.round == g.cursor.round) + 1⟩) := by
  have hgrows := (grows_of_apply works).origins
  have hcount : g.nodes.countP (fun node => node.round == g.cursor.round) = g.cursor.made := by
    rw [worked.paced.made_eq, dates, List.countP_map, ← Array.countP_toList]
    rfl
  rw [if_pos makes] at hgrows
  have hshare : g.share = ⟨g.cursor.made, g.cursor.made + 1⟩ := by
    rw [share, worked.roundLength_eq_zero, Nat.zero_max]
  calc (h.node? g.size).map Node.origin
      = h.origins[g.size]? := (getElem?_origins h g.size).symm
    _ = some (i.stitch, g.cursor.round, g.share) := by
        rw [hgrows, ← length_origins, List.getElem?_concat_length]
    _ = _ := by rw [hshare, hcount]

/-- **A pattern adds its stitches and nothing else moves.**  The edges, joints and triangles that
were there come first and stay, and so do the nodes, but that the newest one may lead on.  The new
nodes are those of the pattern's stitches in order, with the round counted after all rounds used
before, and the share that the round had come to.  In a fabric that was worked without a fault,
rounds and shares therefore rise in the order of making, and a stitch that goes on outside of a
pattern has as its share the number of stitches of its round so far, out of one more. -/
theorem append_adds_origins {p : Pattern} (works : g.append p = .ok h) :
    (g.edges.toList <+: h.edges.toList ∧ g.joints.toList <+: h.joints.toList ∧
      g.faces.toList <+: h.faces.toList) ∧
    (∀ i node, g.node? i = some node → ∃ next, h.node? i = some { node with next := next } ∧
      (i ≠ g.newest → next = node.next)) ∧
    (h.nodes.toList.drop g.size).map Node.origin = p.origins g.roundsUsed ∧
    (∀ origin ∈ p.origins g.roundsUsed, origin.2.2.made < origin.2.2.total) ∧
    ∀ done, WorkedBy done g →
      (∀ i j a b, h.node? i = some a → h.node? j = some b → i < j →
        toLex (a.round, a.progress.value) < toLex (b.round, b.progress.value)) ∧
      ∀ i k, i.stitch.makesNode = true → h.apply i = .ok k →
        (k.node? h.size).map Node.origin = some (i.stitch, h.cursor.round,
          ⟨h.nodes.countP fun node => node.round == h.cursor.round,
            (h.nodes.countP fun node => node.round == h.cursor.round) + 1⟩) := by
  have grows := grows_of_workRounds works
  refine ⟨⟨grows.edges, grows.joints, grows.faces⟩, fun i node => grows.kept, ?_, ?_, ?_⟩
  · have horigins := congrArg (List.drop g.origins.length) grows.origins
    rw [List.drop_left, length_origins, Fabric.origins, ← List.map_drop] at horigins
    exact horigins
  · intro origin hmem
    obtain ⟨origins, horigins, hmem⟩ := List.mem_flatten.1 hmem
    obtain ⟨n, hn, rfl⟩ := List.mem_mapIdx.1 horigins
    exact Round.made_lt_total hmem
  · intro done worked
    have worked' := worked.append works
    exact ⟨fun i j a b => worked'.lt_of_lt, fun i k => worked'.origin_of_apply⟩

/-- A disc with a loose stitch, a pattern onto it with rounds that make nothing, and a stitch after
it.  The last node of the pattern comes before that stitch, and after the loose one. -/
theorem append_adds_origins_disc : ∃ done g h k a b, WorkedBy done g ∧
    g.append ⟨[[.single, .chain, .slip, .increase], [], [.finishOff], [.loop, .single]]⟩ = .ok h ∧
    (h.nodes.toList.drop g.size).map Node.origin =
      [(.single, 3, ⟨0, 4⟩), (.increase, 3, ⟨1, 4⟩), (.loop, 6, ⟨0, 2⟩), (.single, 6, ⟨1, 2⟩)] ∧
    h.node? 4 = some a ∧ h.node? 8 = some b ∧
    toLex (a.round, a.progress.value) < toLex (b.round, b.progress.value) ∧
    h.apply .increase = .ok k ∧ (k.node? 9).map Node.origin = some (.increase, 7, ⟨0, 1⟩) := by
  have hdisc : ofPattern ⟨[[.loop], [.increase, .increase, .increase]]⟩ = .ok _ := rfl
  have hloose := (WorkedBy.of_ofPattern hdisc).apply (i := .single) rfl
  obtain ⟨g, h, hworked, happend, hused, hfourth, hlast, hcursor⟩ :
      ∃ g h, WorkedBy _ g ∧ g.append
        ⟨[[.single, .chain, .slip, .increase], [], [.finishOff], [.loop, .single]]⟩ = .ok h ∧
      g.roundsUsed = 3 ∧ h.node? 4 = some ⟨4, 3, 5, 1, .single, 2, ⟨0, 1⟩⟩ ∧
      h.node? 8 = some ⟨8, 7, 8, 7, .single, 6, ⟨1, 2⟩⟩ ∧
      h.size = 9 ∧ h.cursor.round = 7 ∧ (h.nodes.countP fun node => node.round == 7) = 0 ∧
      (h.applyAll [.increase]).isOk = true := by
    refine ⟨_, worked _, hloose, eq_ok_worked ?_, ?_⟩ <;> decide +kernel
  obtain ⟨hsize, hround, hnone, hgoes⟩ := hcursor
  have hstitch := apply_eq_ok_worked hgoes
  obtain ⟨-, -, horigins, -, hsteady⟩ := append_adds_origins happend
  obtain ⟨hrise, hopen⟩ := hsteady _ hworked
  have hnew := hopen .increase _ rfl hstitch
  rw [hsize, hround, hnone] at hnew
  rw [hused] at horigins
  exact ⟨_, g, h, _, _, _, hworked, happend, horigins, hfourth, hlast,
    hrise 4 8 _ _ hfourth hlast (by decide), hstitch, hnew⟩

end Fabric

end Crochet
