import Crochet.Proofs.Fabric.Counting
import Crochet.Proofs.Fabric.History
import Crochet.Proofs.Fabric.WellFormed

/-!
# No stitch is lost, skipped or worked twice

Every stitch that is no ring becomes live when it is made, and stays live until it is taken: by a
stitch that is worked into it, or by finishing off.  Rings do not count, for they are taken without
leaving the outline and leave it by a rule of their own.

The law is one of conservation: the stitches made so far, in the order of making, are the ones taken
so far, in the order of taking, followed by the ones that are still live (`Balanced`).  A single
instruction moves stitches along this line and never past each other (`exists_made`), so the law
holds at every point of every run (`taken_append_live`).
-/

namespace Crochet

namespace Fabric

/-! ## Made, live and taken -/

/-- The stitches made, other than rings, in the order of making. -/
def stitches (g : Fabric) : List Nat :=
  (g.nodes.toList.filter fun node => !node.isRing).map Node.id

/-- The live stitches, other than rings, oldest first. -/
def live (g : Fabric) : List Nat := g.outline.filter fun id => !g.isRing id

/-- The next `count` stitches that are there to be taken. -/
def takeUp (g : Fabric) : Nat → List Nat
  | 0 => []
  | count + 1 =>
    match g.take? with
    | none => []
    | some (front, h) => front :: h.takeUp count

/-- All that an instruction takes off the outline or works into at its front, in order. -/
def takenBy (g : Fabric) : Instruction → List Nat
  | .single => g.takeUp 1
  | .increase => if g.MovesOn then g.takeUp 1 else []
  | .decrease => g.takeUp 2
  | .finishOff => g.outline
  | _ => []

end Fabric

/-- The stitches taken in a step, other than rings. -/
def Deed.taken (deed : Deed) : List Nat :=
  (deed.fabric.takenBy deed.instruction).filter fun id => !deed.fabric.isRing id

/-- The stitches taken in the course of some steps, other than rings. -/
def takenIn (deeds : List Deed) : List Nat := deeds.flatMap Deed.taken

@[simp] theorem takenIn_append (deeds more : List Deed) :
    takenIn (deeds ++ more) = takenIn deeds ++ takenIn more :=
  List.flatMap_append

@[simp] theorem takenIn_singleton (deed : Deed) : takenIn [deed] = deed.taken := by
  simp [takenIn]

namespace Fabric

variable {g h : Fabric}

/-! ## What a piece of work does to the stitches -/

theorem stitches_of_nodes (hnodes : h.nodes = g.nodes) : h.stitches = g.stitches := by
  simp [stitches, hnodes]

theorem live_congr (hnodes : h.nodes = g.nodes) (hout : h.outline = g.outline) :
    h.live = g.live := by
  simp [live, hout, isRing, node?, hnodes]

/-- A node that is made is a stitch unless it is a ring. -/
theorem stitches_pushNode (g : Fabric) (stitch : Stitch) (last under : Nat) :
    (g.pushNode stitch last under).stitches =
      g.stitches ++ if stitch = .loop then [] else [g.size] := by
  have hpairs (k : Fabric) : k.stitches =
      ((k.nodes.map fun node => (node.id, node.isRing)).toList.filter fun p => !p.2).map
        Prod.fst := by
    simp [stitches, List.filter_map, Function.comp_def]
  rw [hpairs, map_nodes_pushNode g stitch last under _ fun _ _ => rfl, hpairs]
  by_cases hloop : stitch = .loop
  · simp [hloop, newNode, Node.isRing]
  · simp [hloop, newNode, Node.isRing]

/-- A stitch that is woven is made, and live behind all others. -/
theorem stitches_weave {stitch : Stitch} (hstitch : stitch ≠ .loop) (g : Fabric) (under : Nat)
    (ends : List Nat) (corners : List (Nat × Nat)) :
    (g.weave stitch under ends corners).stitches = g.stitches ++ [g.size] ∧
      (g.weave stitch under ends corners).live = g.live ++ [g.size] := by
  have hring : ∀ i, (g.weave stitch under ends corners).isRing i = g.isRing i := by
    intro i
    rw [isRing_weave]
    by_cases hi : i = g.size
    · simp [hi, hstitch, isRing_of_size_le]
    · simp [hi]
  constructor
  · have hpush := stitches_pushNode g stitch g.newest under
    rw [if_neg hstitch] at hpush
    rw [← hpush]
    exact stitches_of_nodes (by rw [weave_eq])
  · simp [live, hring, isRing_of_size_le]

/-- A new ring is no stitch. -/
theorem stitches_workLoop (wf : g.WellFormed) :
    g.workLoop.stitches = g.stitches ∧ g.workLoop.live = g.live := by
  constructor
  · have hpush := stitches_pushNode g .loop g.size g.size
    rw [if_pos rfl, List.append_nil] at hpush
    rw [← hpush]
    exact stitches_of_nodes rfl
  · have hold : ∀ i ∈ g.outline, (!g.workLoop.isRing i) = !g.isRing i := by
      intro i hi
      have hlt := wf.outline_lt i hi
      simp [isRing_workLoop, Nat.ne_of_lt hlt]
    have hnew : g.workLoop.isRing g.size = true := by simp [isRing_workLoop]
    have hout : g.workLoop.outline = g.outline ++ [g.size] := rfl
    simp [live, hout, hnew, List.filter_congr hold]

/-- A stitch that is taken was the oldest live one, unless it is a ring. -/
theorem live_of_take? {front : Nat} (htake : g.take? = some (front, h)) :
    g.live = [front].filter (fun id => !g.isRing id) ++ h.live := by
  obtain ⟨hhead, ⟨hring, rfl⟩ | ⟨hring, rfl⟩⟩ := take?_eq_some htake
  · have hstays : g.takeRing.live = g.live := live_congr rfl rfl
    simp [hring, hstays]
  · obtain ⟨rest, hout⟩ := List.head?_eq_some_iff.1 hhead
    have hrest : g.takeFront.live = rest.filter fun id => !g.isRing id := by
      rw [live, takeFront, hout]
      rfl
    rw [hrest, live, hout]
    simp [hring]

theorem stitches_of_take? {front : Nat} (htake : g.take? = some (front, h)) :
    h.stitches = g.stitches :=
  stitches_of_nodes (nodes_of_take? htake).1

theorem takeUp_succ {front : Nat} (htake : g.take? = some (front, h)) (count : Nat) :
    g.takeUp (count + 1) = front :: h.takeUp count := by
  rw [takeUp, htake]

/-- A stitch into one that was taken goes to the back of the line, and the one taken leaves it at
the front. -/
theorem weaveNext_made {stitch : Stitch} (hstitch : stitch ≠ .loop) {under : Nat}
    (htake : g.take? = some (under, h)) :
    (h.weaveNext stitch under).stitches = g.stitches ++ [h.size] ∧
      g.live ++ [h.size] =
        [under].filter (fun id => !g.isRing id) ++ (h.weaveNext stitch under).live := by
  obtain ⟨hmade, hlive⟩ := stitches_weave hstitch h under
    [h.newest, under, h.cursor.anchor?.getD under] _
  constructor
  · rw [weaveNext, hmade, stitches_of_take? htake]
  · rw [weaveNext, hlive, live_of_take? htake, List.append_assoc]

/-- **What an instruction takes goes out of the line at the front, and what it makes joins the line
at the back.** -/
theorem exists_made (wf : g.WellFormed) {i : Instruction} (happly : g.apply i = .ok h) :
    ∃ made, h.stitches = g.stitches ++ made ∧
      g.live ++ made = Deed.taken ⟨g, i⟩ ++ h.live := by
  have hkeeps : ∀ {k : Fabric}, k.nodes = g.nodes → k.outline = g.outline →
      ∃ made, k.stitches = g.stitches ++ made ∧ g.live ++ made = [] ++ k.live := by
    intro k hnodes hout
    exact ⟨[], by simp [stitches_of_nodes hnodes], by simp [live_congr hnodes hout]⟩
  cases works_of_apply happly with
  | loop =>
    obtain ⟨hmade, hlive⟩ := stitches_workLoop wf
    exact ⟨[], by simp [hmade], by simp [hlive, Deed.taken, takenBy]⟩
  | chain => exact hkeeps rfl rfl
  | @single under taken take =>
    have htaken : Deed.taken ⟨g, .single⟩ = [under].filter fun id => !g.isRing id := by
      rw [Deed.taken, takenBy, takeUp_succ take, takeUp]
    rw [htaken]
    exact ⟨_, weaveNext_made (by decide) take⟩
  | @moveOn under taken moves take =>
    have htaken : Deed.taken ⟨g, .increase⟩ = [under].filter fun id => !g.isRing id := by
      rw [Deed.taken, takenBy, if_pos moves, takeUp_succ take, takeUp]
    rw [htaken]
    exact ⟨_, weaveNext_made (by decide) take⟩
  | @share anchor shared fresh =>
    have hstays := not_movesOn_of_shared shared fresh
    have htaken : Deed.taken ⟨g, .increase⟩ = [] := by
      rw [Deed.taken, takenBy, if_neg hstays, List.filter_nil]
    have hmark : ∀ k : Fabric, k.nodes = g.nodes → k.outline = g.outline →
        ∃ made, (k.weaveShared anchor).stitches = g.stitches ++ made ∧
          g.live ++ made = Deed.taken ⟨g, .increase⟩ ++ (k.weaveShared anchor).live := by
      intro k hnodes hout
      obtain ⟨hmade, hlive⟩ := stitches_weave (by decide : Stitch.increase ≠ .loop) k anchor
        [k.newest, anchor] [(k.newest, anchor)]
      refine ⟨[k.size], ?_, ?_⟩
      · rw [weaveShared, hmade, stitches_of_nodes hnodes]
      · rw [weaveShared, hlive, htaken, live_congr hnodes hout, List.nil_append]
    split
    · exact hmark g.markRing rfl rfl
    · exact hmark g rfl rfl
  | @decrease middle under once twice first second =>
    have htaken : Deed.taken ⟨g, .decrease⟩ =
        ([middle].filter fun id => !g.isRing id) ++ [under].filter fun id => !g.isRing id := by
      rw [Deed.taken, takenBy, takeUp_succ first, takeUp_succ second, takeUp, ← List.filter_append]
      rfl
    obtain ⟨hmade, hlive⟩ := stitches_weave (by decide : Stitch.decrease ≠ .loop) twice under
      [twice.newest, twice.cursor.anchor?.getD middle, middle, under] _
    have hsecond := live_of_take? second
    simp only [isRing_of_take? first] at hsecond
    refine ⟨[twice.size], ?_, ?_⟩
    · rw [weaveOver, hmade, stitches_of_take? second, stitches_of_take? first]
    · rw [weaveOver, hlive, htaken, live_of_take? first, hsecond]
      simp
  | magicRing => exact hkeeps rfl rfl
  | slip last first apart =>
    rw [addEdge, if_neg apart]
    exact hkeeps rfl rfl
  | join hnode hother =>
    unfold addJoint
    split
    · exact hkeeps rfl rfl
    · exact hkeeps rfl rfl
  | finishOff =>
    refine ⟨[], ?_, ?_⟩
    · rw [List.append_nil]
      exact stitches_of_nodes (by rw [workFinish_eq])
    · have hout : g.workFinish.outline = [] := rfl
      simp [Deed.taken, takenBy, live, hout]

/-! ## Runs -/

/-- The stitches made are the ones that were taken, followed by the ones that are live. -/
def Balanced (g : Fabric) (done : List Deed) : Prop := g.stitches = takenIn done ++ g.live

theorem Balanced.apply {done : List Deed} (balanced : g.Balanced done) (wf : g.WellFormed)
    {i : Instruction} (happly : g.apply i = .ok h) : h.Balanced (done ++ [⟨g, i⟩]) := by
  obtain ⟨made, hmade, hline⟩ := exists_made wf happly
  calc h.stitches
      = takenIn done ++ (g.live ++ made) := by rw [hmade, balanced, List.append_assoc]
    _ = takenIn (done ++ [⟨g, i⟩]) ++ h.live := by
        rw [hline, takenIn_append, takenIn_singleton, List.append_assoc]

/-- A ring that leaves at the end of a round is no stitch. -/
theorem live_endRound (g : Fabric) : g.endRound.live = g.live := by
  have hring : ∀ i, g.endRound.isRing i = g.isRing i := isRing_endRound g
  have hout : g.endRound.outline = g.retireRing.outline := rfl
  simp only [live, hring, hout, retireRing_eq]
  split
  · rename_i hretire
    obtain ⟨front, hhead, hfront⟩ := (Option.any_eq_true _ _).1 hretire.2
    obtain ⟨rest, hrest⟩ := List.head?_eq_some_iff.1 hhead
    simp [hrest, hfront]
  · rfl

/-- The law at the end of a run and around each of its steps. -/
theorem recorded_balanced : Recorded fun done g =>
    g.WellFormed ∧ g.Balanced done ∧ ∀ before deed rest, done = before ++ deed :: rest →
      deed.fabric.Balanced before ∧ ∃ h, deed.fabric.apply deed.instruction = .ok h ∧
        h.Balanced (before ++ [deed]) where
  apply := by
    rintro done g h i ⟨wf, balanced, hpast⟩ happly
    have hnow := balanced.apply wf happly
    refine ⟨wf.apply happly, hnow, fun before deed rest hdone => ?_⟩
    rcases List.eq_nil_or_concat rest with rfl | ⟨rest, last, rfl⟩
    · obtain ⟨rfl, hdeed⟩ := List.append_inj' hdone rfl
      obtain rfl := (List.cons.inj hdeed).1
      exact ⟨balanced, h, happly, hnow⟩
    · have hsplit : done ++ [⟨g, i⟩] = (before ++ deed :: rest) ++ [last] := by
        rw [hdone, List.concat_eq_append]
        simp
      exact hpast before deed rest (List.append_inj' hsplit rfl).1
  beginRound := by
    rintro done g length ⟨wf, balanced, hpast⟩
    exact ⟨wf.beginRound length, balanced, hpast⟩
  endRound := by
    rintro done g ⟨wf, balanced, hpast⟩
    refine ⟨wf.endRound, ?_, hpast⟩
    rw [Balanced, live_endRound, stitches_of_nodes (nodes_endRound g).1]
    exact balanced

/-- The stitches of a well-formed fabric ascend. -/
theorem WellFormed.ascending_stitches (wf : g.WellFormed) : g.stitches.Pairwise (· < ·) := by
  have hsub : g.stitches.Sublist (List.range g.size) := by
    rw [← wf.map_id_nodes]
    exact List.filter_sublist.map Node.id
  exact List.pairwise_lt_range.sublist hsub

/-- **No stitch is lost, skipped or worked twice.**  In any run of instructions and patterns, at its
end and before and after each of its steps, the stitches made so far, in the order of making, are
those taken so far, in the order of taking, followed by those that are live, oldest first; and each
of them occurs once. -/
theorem taken_append_live (calls : List Call) :
    (after calls).stitches = takenIn (history calls) ++ (after calls).live ∧
    (after calls).stitches.Pairwise (· < ·) ∧
    (takenIn (history calls) ++ (after calls).live).Nodup ∧
    ∀ before deed rest, history calls = before ++ deed :: rest →
      deed.fabric.stitches = takenIn before ++ deed.fabric.live ∧
      ∃ h, deed.fabric.apply deed.instruction = .ok h ∧
        h.stitches = takenIn (before ++ [deed]) ++ h.live := by
  obtain ⟨wf, balanced, hpast⟩ := recorded_balanced.history
    ⟨.empty, rfl, by simp⟩ calls
  have hascending := wf.ascending_stitches
  refine ⟨balanced, hascending, ?_, hpast⟩
  have hline : (after calls).stitches = takenIn (history calls) ++ (after calls).live := balanced
  rw [← hline]
  exact hascending.imp Nat.ne_of_lt

/-- A cup that narrows to one stitch, a decrease that finds too few, and a round that is finished
off and then asks for one more. -/
theorem taken_append_live_cup : ∃ calls before deed,
    calls = [.append ⟨[[.loop], [.increase, .increase, .increase], [.single, .decrease]]⟩,
      .apply .decrease, .apply .decrease, .append ⟨[[.finishOff, .single]]⟩] ∧
    (after calls).stitches = [1, 2, 3, 4, 5, 6] ∧
    takenIn (history calls) ++ (after calls).live = [1, 2, 3, 4, 5, 6] ∧
    history calls = before ++ [deed] ∧ deed.instruction = .finishOff ∧
    takenIn before = [1, 2, 3, 4, 5] ∧
    deed.fabric.stitches = takenIn before ++ deed.fabric.live := by
  let calls : List Call :=
    [.append ⟨[[.loop], [.increase, .increase, .increase], [.single, .decrease]]⟩,
      .apply .decrease, .apply .decrease, .append ⟨[[.finishOff, .single]]⟩]
  obtain ⟨hall, -, -, hpast⟩ := taken_append_live calls
  have hmade : (after calls).stitches = [1, 2, 3, 4, 5, 6] := by decide +kernel
  have hlast : history calls = (history calls).take 7 ++ [_] := rfl
  refine ⟨calls, (history calls).take 7, _, rfl, hmade, hall ▸ hmade, hlast, rfl,
    by decide +kernel, (hpast _ _ [] hlast).1⟩

end Fabric

end Crochet
