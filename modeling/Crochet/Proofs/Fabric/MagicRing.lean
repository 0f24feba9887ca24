import Crochet.Proofs.Fabric.Growth

/-!
# A magic ring that is written out

The first increases of a piece can be told to share the ring by a magic ring before them, or the
magic ring can be written out as increases alone.  The first increase then moves on to the ring,
which is where it would have been anyway: it is held by one edge more, and counts the ring once.

Edges and counts are only ever written, and so is the share of a round, which is all that the length
of a round is for.  Fabrics that differ in nothing else stay alike whatever is worked on them, and
what fails on one fails on the other (`Alike`).
-/

namespace Crochet

/-- A node without how far its round had come. -/
def Node.unpaced (node : Node) : Node := { node with progress := ⟨0, 0⟩ }

namespace Fabric

variable {extra : Array Edge} {more : Nat} {g h : Fabric}

/-! ## Fabrics that are alike -/

/-- Whether two fabrics differ in no more than some extra edges of the second, made first, in some
more stitches counted, and in the lengths of the rounds. -/
structure Alike (extra : Array Edge) (more : Nat) (g h : Fabric) : Prop where
  nodes : h.nodes.map Node.unpaced = g.nodes.map Node.unpaced
  edges : h.edges = extra ++ g.edges
  joints : h.joints = g.joints
  faces : h.faces = g.faces
  outline : h.outline = g.outline
  cursor : ∃ length, h.cursor = { g.cursor with roundLength := length }
  consumed : h.consumed = g.consumed + more

/-- Whether two pieces of work both fail, or make fabrics that are alike. -/
inductive GoAlike (extra : Array Edge) (more : Nat) {ε δ : Type} :
    Except ε Fabric → Except δ Fabric → Prop
  | ok {g h : Fabric} (alike : Alike extra more g h) : GoAlike extra more (.ok g) (.ok h)
  | error (fault : ε) (other : δ) : GoAlike extra more (.error fault) (.error other)

theorem GoAlike.cases {ε δ : Type} {work : Except ε Fabric} {work' : Except δ Fabric}
    (goes : GoAlike extra more work work') :
    (∃ fault other, work = .error fault ∧ work' = .error other) ∨
      ∃ g h, work = .ok g ∧ work' = .ok h ∧ Alike extra more g h := by
  cases goes with
  | ok alike => exact Or.inr ⟨_, _, rfl, rfl, alike⟩
  | error fault other => exact Or.inl ⟨fault, other, rfl, rfl⟩

namespace Alike

theorem size_eq (alike : Alike extra more g h) : h.size = g.size := by
  have hsize := congrArg Array.size alike.nodes
  rwa [Array.size_map, Array.size_map] at hsize

theorem newest_eq (alike : Alike extra more g h) : h.newest = g.newest := by
  rw [newest, alike.size_eq, newest]

theorem node?_eq (alike : Alike extra more g h) (id : Nat) :
    (h.node? id).map Node.unpaced = (g.node? id).map Node.unpaced := by
  rw [node?, node?, ← Array.getElem?_map, alike.nodes, Array.getElem?_map]

theorem isRing_eq (alike : Alike extra more g h) (id : Nat) : h.isRing id = g.isRing id := by
  have hany := congrArg (Option.any Node.isRing) (alike.node?_eq id)
  rwa [Option.any_map, Option.any_map] at hany

theorem roundsUsed_eq (alike : Alike extra more g h) : h.roundsUsed = g.roundsUsed := by
  obtain ⟨length, hcursor⟩ := alike.cursor
  rw [roundsUsed, hcursor, roundsUsed]

theorem nodes_pushNode (alike : Alike extra more g h) (stitch : Stitch) (last under : Nat) :
    (h.pushNode stitch last under).nodes.map Node.unpaced =
      (g.pushNode stitch last under).nodes.map Node.unpaced := by
  obtain ⟨length, hcursor⟩ := alike.cursor
  refine Array.ext_getElem? fun id => ?_
  rw [Array.getElem?_map, Array.getElem?_map]
  show ((h.pushNode stitch last under).node? id).map _ =
    ((g.pushNode stitch last under).node? id).map _
  rw [node?_pushNode, node?_pushNode, alike.size_eq, alike.isRing_eq]
  split
  · simp only [newNode, Node.unpaced, hcursor, alike.size_eq, Option.map_some]
  · -- What leads on to the new node is the same with the share of the round or without.
    have hlead : ∀ node : Node,
        (if id = last ∧ stitch ≠ .loop ∧ g.isRing last = false then
          { node with next := g.size } else node).unpaced =
        if id = last ∧ stitch ≠ .loop ∧ g.isRing last = false then
          { node.unpaced with next := g.size } else node.unpaced := by
      intro node
      split <;> rfl
    have hmap := congrArg (Option.map fun node : Node =>
      if id = last ∧ stitch ≠ .loop ∧ g.isRing last = false then
        { node with next := g.size } else node) (alike.node?_eq id)
    simpa only [Option.map_map, Function.comp_def, hlead] using hmap

theorem weave (alike : Alike extra more g h) (stitch : Stitch) (under : Nat) (ends : List Nat)
    (corners : List (Nat × Nat)) :
    Alike extra more (g.weave stitch under ends corners) (h.weave stitch under ends corners) := by
  obtain ⟨length, hcursor⟩ := alike.cursor
  rw [weave_eq, weave_eq, alike.newest_eq, alike.size_eq]
  exact {
    nodes := alike.nodes_pushNode stitch g.newest under
    edges := by rw [alike.edges, Array.append_assoc]
    joints := alike.joints
    faces := by rw [alike.faces]
    outline := by rw [alike.outline]
    cursor := ⟨length, by rw [hcursor]⟩
    consumed := alike.consumed }

theorem workLoop (alike : Alike extra more g h) : Alike extra more g.workLoop h.workLoop := by
  obtain ⟨length, hcursor⟩ := alike.cursor
  rw [workLoop_eq, workLoop_eq, alike.size_eq]
  exact { alike with
    nodes := alike.nodes_pushNode .loop g.size g.size
    outline := by rw [alike.outline]
    cursor := ⟨length, by rw [hcursor]⟩ }

theorem markRing (alike : Alike extra more g h) : Alike extra more g.markRing h.markRing := by
  obtain ⟨length, hcursor⟩ := alike.cursor
  exact { alike with cursor := ⟨length, by rw [Fabric.markRing, hcursor]; rfl⟩ }

/-- The same live stitch is taken from both, or none is there. -/
theorem take? (alike : Alike extra more g h) :
    g.take? = none ∧ h.take? = none ∨ ∃ front g' h', g.take? = some (front, g') ∧
      h.take? = some (front, h') ∧ Alike extra more g' h' := by
  cases hout : g.outline with
  | nil =>
    have hout' : h.outline = [] := alike.outline.trans hout
    exact Or.inl ⟨by simp [Fabric.take?, hout], by simp [Fabric.take?, hout']⟩
  | cons front rest =>
    have hout' : h.outline = front :: rest := alike.outline.trans hout
    have hring' := alike.isRing_eq front
    have hconsumed : h.consumed + 1 = g.consumed + 1 + more := by
      rw [alike.consumed]
      omega
    refine Or.inr ⟨front, ?_⟩
    cases hring : g.isRing front with
    | true =>
      exact ⟨_, _, take?_of_ring hout hring, take?_of_ring hout' (hring'.trans hring),
        { alike.markRing with consumed := hconsumed }⟩
    | false =>
      exact ⟨_, _, take?_of_not_ring hout hring, take?_of_not_ring hout' (hring'.trans hring),
        { alike with outline := rfl, consumed := hconsumed }⟩

theorem weaveNext (alike : Alike extra more g h) (stitch : Stitch) (under : Nat) :
    Alike extra more (g.weaveNext stitch under) (h.weaveNext stitch under) := by
  obtain ⟨length, hcursor⟩ := alike.cursor
  rw [Fabric.weaveNext, Fabric.weaveNext, alike.newest_eq, hcursor]
  exact alike.weave ..

theorem weaveShared (alike : Alike extra more g h) (anchor : Nat) :
    Alike extra more (g.weaveShared anchor) (h.weaveShared anchor) := by
  rw [Fabric.weaveShared, Fabric.weaveShared, alike.newest_eq]
  exact alike.weave ..

theorem weaveOver (alike : Alike extra more g h) (middle under : Nat) :
    Alike extra more (g.weaveOver middle under) (h.weaveOver middle under) := by
  obtain ⟨length, hcursor⟩ := alike.cursor
  rw [Fabric.weaveOver, Fabric.weaveOver, alike.newest_eq, hcursor]
  exact alike.weave ..

/-! ## Work on fabrics that are alike -/

theorem workNext (alike : Alike extra more g h) (stitch : Stitch) :
    GoAlike extra more (g.workNext stitch) (h.workNext stitch) := by
  rcases alike.take? with ⟨hnone, hnone'⟩ | ⟨under, g', h', htake, htake', alike'⟩
  · rw [Fabric.workNext, Fabric.workNext, hnone, hnone']
    exact .error _ _
  · rw [workNext_of_take? stitch htake, workNext_of_take? stitch htake']
    exact .ok (alike'.weaveNext stitch under)

theorem workAnchor (alike : Alike extra more g h) (anchor : Nat) :
    Alike extra more (g.workAnchor anchor) (h.workAnchor anchor) := by
  rw [workAnchor_eq, workAnchor_eq, alike.isRing_eq]
  split
  · exact alike.markRing.weaveShared anchor
  · exact alike.weaveShared anchor

theorem workIncrease (alike : Alike extra more g h) :
    GoAlike extra more g.workIncrease h.workIncrease := by
  obtain ⟨length, hcursor⟩ := alike.cursor
  have hanchor : h.cursor.anchor? = g.cursor.anchor? := by rw [hcursor]
  have hspent : h.cursor.anchorSpent = g.cursor.anchorSpent := by rw [hcursor]
  unfold Fabric.workIncrease
  rw [hanchor, hspent]
  split
  · exact .ok (alike.workAnchor _)
  · exact alike.workNext .increase

theorem workDecrease (alike : Alike extra more g h) :
    GoAlike extra more g.workDecrease h.workDecrease := by
  rcases alike.take? with ⟨hnone, hnone'⟩ | ⟨middle, g₁, h₁, hfirst, hfirst', alike₁⟩
  · rw [Fabric.workDecrease, Fabric.workDecrease, hnone, hnone']
    exact .error _ _
  · rcases alike₁.take? with ⟨hnone, hnone'⟩ | ⟨under, g₂, h₂, hsecond, hsecond', alike₂⟩
    · simp only [Fabric.workDecrease, hfirst, hfirst', hnone, hnone']
      exact .error _ _
    · rw [workDecrease_of_take? hfirst hsecond, workDecrease_of_take? hfirst' hsecond']
      exact .ok (alike₂.weaveOver middle under)

theorem addEdge (alike : Alike extra more g h) (source target distance : Nat) :
    Alike extra more (g.addEdge source target distance) (h.addEdge source target distance) := by
  unfold Fabric.addEdge
  split
  · exact alike
  · exact { alike with edges := by rw [alike.edges, Array.push_append] }

theorem addJoint (alike : Alike extra more g h) (source target : Nat) :
    Alike extra more (g.addJoint source target) (h.addJoint source target) := by
  unfold Fabric.addJoint
  split
  · exact alike
  · exact { alike with joints := by rw [alike.joints] }

theorem workSlip (alike : Alike extra more g h) :
    GoAlike extra more g.workSlip h.workSlip := by
  unfold Fabric.workSlip
  rw [alike.outline]
  split
  · split
    · exact .error _ _
    · exact .ok (alike.addEdge ..)
  · exact .error _ _

theorem workJoin (alike : Alike extra more g h) (node other : Nat) :
    GoAlike extra more (g.workJoin node other) (h.workJoin node other) := by
  unfold Fabric.workJoin checkNode
  rw [alike.size_eq]
  by_cases hnode : node < g.size
  · by_cases hother : other < g.size
    · simp only [if_pos hnode, if_pos hother]
      exact .ok (alike.addJoint node other)
    · simp only [if_pos hnode, if_neg hother]
      exact .error _ _
  · simp only [if_neg hnode]
    exact .error _ _

theorem workFinish (alike : Alike extra more g h) :
    Alike extra more g.workFinish h.workFinish := by
  obtain ⟨length, hcursor⟩ := alike.cursor
  rw [workFinish_eq, workFinish_eq, alike.outline]
  exact { alike with
    joints := by rw [alike.joints]
    outline := rfl
    cursor := ⟨length, by rw [hcursor]⟩
    consumed := by
      rw [alike.consumed]
      exact Nat.add_right_comm .. }

/-- Whatever is worked on fabrics that are alike, they stay alike or refuse it both. -/
theorem apply (alike : Alike extra more g h) (i : Instruction) :
    GoAlike extra more (g.apply i) (h.apply i) := by
  cases i with
  | loop => exact .ok alike.workLoop
  | chain => exact .ok alike
  | single => exact alike.workNext .single
  | increase => exact alike.workIncrease
  | decrease => exact alike.workDecrease
  | magicRing =>
    obtain ⟨length, hcursor⟩ := alike.cursor
    exact .ok { alike with cursor := ⟨length, by rw [hcursor]⟩ }
  | slip => exact alike.workSlip
  | join node other => exact alike.workJoin node other
  | finishOff => exact .ok alike.workFinish

theorem beginRound (alike : Alike extra more g h) (length length' : Nat) :
    Alike extra more (g.beginRound length) (h.beginRound length') := by
  obtain ⟨_, hcursor⟩ := alike.cursor
  have hused := alike.roundsUsed_eq
  exact { alike with
    cursor := ⟨length', by simp only [Fabric.beginRound, hcursor, hused]⟩ }

theorem endRound (alike : Alike extra more g h) : Alike extra more g.endRound h.endRound := by
  obtain ⟨length, hcursor⟩ := alike.cursor
  have hworked : h.cursor.ringWorked = g.cursor.ringWorked := by rw [hcursor]
  have hring : h.isRing = g.isRing := funext alike.isRing_eq
  have hretire : Alike extra more g.retireRing h.retireRing := by
    rw [retireRing_eq, retireRing_eq, hworked, alike.outline, hring]
    split
    · exact { alike with outline := rfl }
    · exact alike
  obtain ⟨length, hcursor⟩ := hretire.cursor
  exact { hretire with cursor := ⟨0, by simp only [Fabric.endRound, hcursor]⟩ }

end Alike

namespace GoAlike

variable {i : Instruction} {instructions : List Instruction} {round round' : Round} {index : Nat}

theorem cons_left {middle : Fabric} {work : Except Halt Fabric} (happly : g.apply i = .ok middle)
    (goes : GoAlike extra more (middle.applyAll instructions) work) :
    GoAlike extra more (g.applyAll (i :: instructions)) work := by
  rcases goes.cases with ⟨halt, other, hrest, rfl⟩ | ⟨k, l, hrest, rfl, alike⟩
  · simp only [applyAll, happly, hrest]
    exact .error _ _
  · rw [applyAll_cons_ok happly hrest]
    exact .ok alike

theorem cons_right {middle : Fabric} {work : Except Halt Fabric} (happly : h.apply i = .ok middle)
    (goes : GoAlike extra more work (middle.applyAll instructions)) :
    GoAlike extra more work (h.applyAll (i :: instructions)) := by
  rcases goes.cases with ⟨halt, other, rfl, hrest⟩ | ⟨k, l, rfl, hrest, alike⟩
  · simp only [applyAll, happly, hrest]
    exact .error _ _
  · rw [applyAll_cons_ok happly hrest]
    exact .ok alike

/-- Rounds that go alike are ended alike. -/
theorem workRound (index : Nat) (goes : GoAlike extra more
      ((g.beginRound round.length).applyAll round) ((h.beginRound round'.length).applyAll round')) :
    GoAlike extra more (g.workRound index round) (h.workRound index round') := by
  rcases goes.cases with ⟨halt, other, hwork, hwork'⟩ | ⟨k, l, hwork, hwork', alike⟩
  · simp only [Fabric.workRound, hwork, hwork']
    exact .error _ _
  · rw [workRound_ok hwork, workRound_ok hwork']
    exact .ok alike.endRound

theorem workRounds_cons {rest : List Round}
    (goes : GoAlike extra more (g.workRound index round) (h.workRound index round'))
    (hrest : ∀ {k l : Fabric}, Alike extra more k l →
      GoAlike extra more (k.workRounds (index + 1) rest) (l.workRounds (index + 1) rest)) :
    GoAlike extra more (g.workRounds index (round :: rest))
      (h.workRounds index (round' :: rest)) := by
  rcases goes.cases with ⟨halt, other, hwork, hwork'⟩ | ⟨k, l, hwork, hwork', alike⟩
  · simp only [workRounds, hwork, hwork']
    exact .error _ _
  · simp only [workRounds, hwork, hwork']
    exact hrest alike

end GoAlike

theorem Alike.applyAll (alike : Alike extra more g h) (instructions : List Instruction) :
    GoAlike extra more (g.applyAll instructions) (h.applyAll instructions) := by
  induction instructions generalizing g h with
  | nil => exact .ok alike
  | cons i rest ih =>
    rcases (alike.apply i).cases with ⟨fault, other, hfail, hfail'⟩ | ⟨k, l, hwork, hwork', alike'⟩
    · simp only [Fabric.applyAll, hfail, hfail']
      exact .error _ _
    · exact ((ih alike').cons_left hwork).cons_right hwork'

theorem Alike.workRounds (alike : Alike extra more g h) (index : Nat) (rounds : List Round) :
    GoAlike extra more (g.workRounds index rounds) (h.workRounds index rounds) := by
  induction rounds generalizing g h index with
  | nil => exact .ok alike
  | cons round rest ih =>
    have hround := (alike.beginRound round.length round.length).applyAll round
    exact (hround.workRound index).workRounds_cons fun alike' => ih alike' (index + 1)

/-! ## The ring -/

/-- The fabric of the usual first round. -/
def loneRing : Fabric := (empty.beginRound 1).workLoop.endRound

theorem ofPattern_startingWithLoop (rounds : List Round) :
    ofPattern (.startingWithLoop rounds) = loneRing.workRounds 1 rounds := rfl

/-- A ring and the first increase of a round of some length.  It is held to the ring by two edges,
and by one more for each time that it counts the ring. -/
def firstIncrease (length consumed : Nat) : Fabric where
  nodes := #[⟨0, 0, 0, 0, .loop, 0, ⟨0, 1⟩⟩, ⟨1, 0, 1, 0, .increase, 1, ⟨0, max length 1⟩⟩]
  edges := Array.replicate (consumed + 2) ⟨1, 0, 1⟩
  outline := [0, 1]
  cursor :=
    { anchor? := some 0, ringWorked := true, round := 1, roundLength := length, made := 1 }
  consumed := consumed

/-- After a magic ring, the first increase shares the ring. -/
theorem shared_first_increase (length : Nat) : ∃ marked,
    (loneRing.beginRound length).apply .magicRing = .ok marked ∧
      marked.apply .increase = .ok (firstIncrease length 0) :=
  ⟨_, rfl, rfl⟩

/-- Without one it moves on to the ring. -/
theorem moved_first_increase (length : Nat) :
    (loneRing.beginRound length).apply .increase = .ok (firstIncrease length 1) := rfl

theorem alike_firstIncrease (length length' : Nat) :
    Alike #[⟨1, 0, 1⟩] 1 (firstIncrease length 0) (firstIncrease length' 1) where
  nodes := by simp [firstIncrease, Node.unpaced]
  edges := rfl
  joints := rfl
  faces := rfl
  outline := rfl
  cursor := ⟨length', rfl⟩
  consumed := rfl

variable {rest : List Round}

/-- A magic ring goes alike before increases and written out as increases, whatever is worked on
it. -/
theorem goAlike_magicRing (count : Nat) (rest : List Round) : GoAlike #[⟨1, 0, 1⟩] 1
    (ofPattern (.startingWithLoop ((.magicRing :: List.replicate (count + 1) .increase) :: rest)))
    (ofPattern (.startingWithLoop (Instruction.magicRing.times (count + 1) :: rest))) := by
  rw [ofPattern_startingWithLoop, ofPattern_startingWithLoop]
  obtain ⟨marked, hmark, hshare⟩ := shared_first_increase (count + 2)
  have hmove := moved_first_increase (count + 1)
  have hlater := (alike_firstIncrease (count + 2) (count + 1)).applyAll
    (List.replicate count .increase)
  have hround := ((hlater.cons_left hshare).cons_left hmark).cons_right hmove
  refine GoAlike.workRounds_cons (GoAlike.workRound 1 ?_) fun alike => alike.workRounds 2 rest
  simpa [Instruction.times, List.replicate_succ] using hround

/-- The first increase of a magic ring is held to the ring. -/
theorem mem_edges_of_magicRing {round : Round} (works : ofPattern
      (.startingWithLoop ((.magicRing :: .increase :: round) :: rest)) = .ok g) :
    (⟨1, 0, 1⟩ : Edge) ∈ g.edges := by
  rw [ofPattern_startingWithLoop] at works
  obtain ⟨ended, hround, hrest⟩ := exists_of_workRounds_cons works
  obtain ⟨k, hall, rfl⟩ := exists_of_workRound hround
  obtain ⟨marked, hmark, hall⟩ := exists_of_applyAll_cons hall
  obtain ⟨shared, hshare, hall⟩ := exists_of_applyAll_cons hall
  obtain ⟨marked', hmark', hshare'⟩ := shared_first_increase (round.length + 2)
  obtain rfl : marked = marked' := Except.ok.inj (hmark.symm.trans hmark')
  obtain rfl : shared = firstIncrease (round.length + 2) 0 :=
    Except.ok.inj (hshare.symm.trans hshare')
  have hedges := ((grows_of_applyAll hall).1.edges.trans (grows_endRound k).edges).trans
    (grows_of_workRounds hrest).edges
  exact Array.mem_toList_iff.1 (hedges.subset (by simp [firstIncrease]))

/-- **A magic ring before increases and one that is written out as increases make the same fabric.**
Whatever rounds come after it, one pattern can be worked if the other can.  The nodes then agree in
all but how far their rounds had come, and joints, triangles, live stitches and the cursor are the
same.  The magic ring that is written out has one more edge, which holds the first increase to the
ring once more, and counts one more stitch. -/
theorem magicRing_written_out {count : Nat} (positive : 0 < count) (rest : List Round) :
    ((∃ g, ofPattern
        (.startingWithLoop ((.magicRing :: List.replicate count .increase) :: rest)) = .ok g) ↔
      ∃ h, ofPattern (.startingWithLoop (Instruction.magicRing.times count :: rest)) = .ok h) ∧
    ∀ g h, ofPattern
        (.startingWithLoop ((.magicRing :: List.replicate count .increase) :: rest)) = .ok g →
      ofPattern (.startingWithLoop (Instruction.magicRing.times count :: rest)) = .ok h →
      (h.nodes.map Node.unpaced = g.nodes.map Node.unpaced ∧ h.joints = g.joints ∧
        h.faces = g.faces ∧ h.outline = g.outline ∧ h.cursor = g.cursor) ∧
      h.edges = #[⟨1, 0, 1⟩] ++ g.edges ∧ ⟨1, 0, 1⟩ ∈ g.edges ∧
      h.consumed = g.consumed + 1 := by
  obtain ⟨n, rfl⟩ := Nat.exists_eq_succ_of_ne_zero (Nat.ne_of_gt positive)
  rcases (goAlike_magicRing n rest).cases with
    ⟨fault, other, hfail, hfail'⟩ | ⟨k, l, hwork, hwork', alike⟩
  · refine ⟨?_, fun g h hg => ?_⟩
    · simp [hfail, hfail']
    · rw [hfail] at hg
      cases hg
  · refine ⟨⟨fun _ => ⟨l, hwork'⟩, fun _ => ⟨k, hwork⟩⟩, fun g h hg hh => ?_⟩
    obtain rfl := Except.ok.inj (hwork.symm.trans hg)
    obtain rfl := Except.ok.inj (hwork'.symm.trans hh)
    have hlength := (WorkedBy.of_ofPattern hwork).roundLength_eq_zero
    have hlength' := (WorkedBy.of_ofPattern hwork').roundLength_eq_zero
    obtain ⟨length, hcursor⟩ := alike.cursor
    have hsame : length = k.cursor.roundLength := by
      rw [hcursor] at hlength'
      rw [hlength]
      exact hlength'
    have hcursors : l.cursor = k.cursor := by rw [hcursor, hsame]
    exact ⟨⟨alike.nodes, alike.joints, alike.faces, alike.outline, hcursors⟩, alike.edges,
      mem_edges_of_magicRing hwork, alike.consumed⟩

/-- Three increases into a ring, and a bag closed over them. -/
theorem magicRing_written_out_bag : 0 < 3 ∧ ∃ g h : Fabric,
    ofPattern ⟨[[.loop], [.magicRing, .increase, .increase, .increase], [.decrease, .single],
      [.finishOff]]⟩ = .ok g ∧
    ofPattern ⟨[[.loop], [.increase, .increase, .increase], [.decrease, .single],
      [.finishOff]]⟩ = .ok h ∧
    h.nodes.map Node.unpaced = g.nodes.map Node.unpaced ∧ h.cursor = g.cursor ∧
    h.edges = #[⟨1, 0, 1⟩] ++ g.edges ∧ h.consumed = g.consumed + 1 := by
  have hpositive : 0 < 3 := by decide
  obtain ⟨hiff, hsame⟩ := magicRing_written_out hpositive [[.decrease, .single], [.finishOff]]
  obtain ⟨h, hh⟩ := hiff.1 ⟨worked _, eq_ok_worked (by decide +kernel)⟩
  obtain ⟨g, hg⟩ := hiff.2 ⟨h, hh⟩
  obtain ⟨⟨hnodes, -, -, -, hcursor⟩, hedges, -, hconsumed⟩ := hsame g h hg hh
  exact ⟨hpositive, g, h, hg, hh, hnodes, hcursor, hedges, hconsumed⟩

end Fabric

end Crochet
