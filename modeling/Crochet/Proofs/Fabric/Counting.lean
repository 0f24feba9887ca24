import Crochet.Proofs.Fabric.Reachable
import Crochet.Proofs.Fabric.Stitching

/-!
# Counting a round and working it

A round of plain stitches takes up as many live stitches as `Round.demand` counts, however it comes
to be worked (`counts_of_workRound`).  Conversely, where the stitches of the round below are all
that is live, a round that demands all of them can be worked and leaves exactly its own stitches
live (`exists_workRound`).  The ring of the first round is the one live stitch that is taken without
leaving; it goes when the round ends (`exists_workRound_of_ring`).
-/

namespace Crochet

/-! ## Plain stitches -/

namespace Instruction

/-- Whether an instruction works a stitch into the round below. -/
def isPlain : Instruction → Bool
  | single | increase | decrease => true
  | _ => false

/-- What an instruction takes up once the round is under way. -/
def uptake (i : Instruction) : Nat := i.needs?.getD 0

theorem makesNode_of_isPlain {i : Instruction} (plain : i.isPlain = true) :
    i.stitch.makesNode = true ∧ i.stitch ≠ .loop := by
  cases i with
  | single | increase | decrease => decide
  | loop | chain | magicRing | slip | join | finishOff => simp [isPlain] at plain

end Instruction

namespace Fabric

variable {g h : Fabric} {i : Instruction}

instance (g : Fabric) : Decidable g.MovesOn := inferInstanceAs (Decidable (_ ∨ _))

/-- What an instruction takes up from a fabric: an increase shares the stitch worked into last, but
has to move on if there is none or if it is spent. -/
def need (g : Fabric) (i : Instruction) : Nat :=
  if g.MovesOn then Round.firstNeeds i else i.uptake

theorem need_single (g : Fabric) : g.need .single = 1 := by
  unfold need
  split <;> rfl

theorem need_decrease (g : Fabric) : g.need .decrease = 2 := by
  unfold need
  split <;> rfl

/-- A stitch that was worked can be shared. -/
theorem not_movesOn_weave (g : Fabric) (stitch : Stitch) (under : Nat) (ends : List Nat)
    (corners : List (Nat × Nat)) : ¬(g.weave stitch under ends corners).MovesOn := by
  rintro (h | h) <;> simp at h

theorem movesOn_beginRound (g : Fabric) (length : Nat) : (g.beginRound length).MovesOn :=
  Or.inr rfl

/-- Where the stitch worked into last can be shared, an increase does not move on. -/
theorem not_movesOn_of_shared {anchor : Nat} (shared : g.cursor.anchor? = some anchor)
    (fresh : g.cursor.anchorSpent = false) : ¬g.MovesOn := by
  rintro (hnone | hspent)
  · simp [shared] at hnone
  · simp [fresh] at hspent

/-- An increase that shares the anchor takes up nothing. -/
theorem need_of_shared {anchor : Nat} (shared : g.cursor.anchor? = some anchor)
    (fresh : g.cursor.anchorSpent = false) : g.need .increase = 0 :=
  if_neg (not_movesOn_of_shared shared fresh)

/-- Whether a fabric is another one from which live stitches may have been taken. -/
structure Taken (g t : Fabric) : Prop where
  nodes : t.nodes = g.nodes
  edges : t.edges = g.edges
  joints : t.joints = g.joints
  faces : t.faces = g.faces
  round : t.cursor.round = g.cursor.round
  made : t.cursor.made = g.cursor.made
  length : t.cursor.roundLength = g.cursor.roundLength

namespace Taken

variable {t : Fabric}

theorem refl (g : Fabric) : g.Taken g := ⟨rfl, rfl, rfl, rfl, rfl, rfl, rfl⟩

theorem trans (first : g.Taken h) (second : h.Taken t) : g.Taken t where
  nodes := second.nodes.trans first.nodes
  edges := second.edges.trans first.edges
  joints := second.joints.trans first.joints
  faces := second.faces.trans first.faces
  round := second.round.trans first.round
  made := second.made.trans first.made
  length := second.length.trans first.length

theorem of_take? {front : Nat} (htake : g.take? = some (front, t)) : g.Taken t := by
  obtain ⟨-, ⟨-, rfl⟩ | ⟨-, rfl⟩⟩ := take?_eq_some htake <;>
    exact ⟨rfl, rfl, rfl, rfl, rfl, rfl, rfl⟩

theorem markRing (g : Fabric) : g.Taken g.markRing := ⟨rfl, rfl, rfl, rfl, rfl, rfl, rfl⟩

theorem size_eq (taken : g.Taken t) : t.size = g.size := by rw [size, taken.nodes, size]

theorem newest_eq (taken : g.Taken t) : t.newest = g.newest := by
  rw [newest, taken.size_eq, newest]

theorem isRing_eq (taken : g.Taken t) (id : Nat) : t.isRing id = g.isRing id := by
  rw [isRing, node?, taken.nodes, isRing, node?]

theorem share_eq (taken : g.Taken t) : t.share = g.share := by
  rw [share, taken.made, taken.length, share]

end Taken

/-- A plain stitch is woven once the live stitches that it needs are taken. -/
theorem exists_weave_of_apply (plain : i.isPlain = true) (happly : g.apply i = .ok h) :
    ∃ t under ends corners, g.Taken t ∧ t.consumed = g.consumed + g.need i ∧
      h = t.weave i.stitch under ends corners := by
  cases works_of_apply happly with
  | single take =>
    refine ⟨_, _, _, _, .of_take? take, ?_, rfl⟩
    rw [(nodes_of_take? take).2, need_single]
  | moveOn moves take =>
    refine ⟨_, _, _, _, .of_take? take, ?_, rfl⟩
    rw [(nodes_of_take? take).2, need, if_pos moves]
    rfl
  | @share anchor shared fresh =>
    rw [need_of_shared shared fresh]
    split
    · exact ⟨_, _, _, _, .markRing g, rfl, rfl⟩
    · exact ⟨_, _, _, _, .refl g, rfl, rfl⟩
  | decrease first second =>
    refine ⟨_, _, _, _, (Taken.of_take? first).trans (.of_take? second), ?_, rfl⟩
    rw [(nodes_of_take? second).2, (nodes_of_take? first).2, need_decrease]
  | loop | chain | magicRing | slip | join | finishOff => simp [Instruction.isPlain] at plain

/-- A plain stitch makes one node, takes up what it needs, and can be shared. -/
theorem counts_of_apply (plain : i.isPlain = true) (happly : g.apply i = .ok h) :
    h.size = g.size + 1 ∧ h.consumed = g.consumed + g.need i ∧ ¬h.MovesOn := by
  obtain ⟨t, under, ends, corners, taken, hconsumed, rfl⟩ := exists_weave_of_apply plain happly
  refine ⟨?_, ?_, not_movesOn_weave _ _ _ _ _⟩
  · rw [size_weave, taken.size_eq]
  · rw [consumed_weave, hconsumed]

/-- A plain stitch makes no ring, and leaves the older nodes what they were. -/
theorem isRing_of_apply (plain : i.isPlain = true) (happly : g.apply i = .ok h) (id : Nat) :
    h.isRing id = if id = g.size then false else g.isRing id := by
  obtain ⟨t, under, ends, corners, taken, -, rfl⟩ := exists_weave_of_apply plain happly
  have hstitch : (i.stitch == .loop) = false := by
    simpa using (Instruction.makesNode_of_isPlain plain).2
  rw [isRing_weave, taken.size_eq, taken.isRing_eq, hstitch]

/-! ## Working off live stitches -/

theorem workNext_of_take? {taken : Fabric} {under : Nat} (stitch : Stitch)
    (htake : g.take? = some (under, taken)) :
    g.workNext stitch = .ok (taken.weaveNext stitch under) := by
  rw [workNext, htake]
  rfl

theorem workDecrease_of_take? {once twice : Fabric} {middle under : Nat}
    (hfirst : g.take? = some (middle, once)) (hsecond : once.take? = some (under, twice)) :
    g.workDecrease = .ok (twice.weaveOver middle under) := by
  rw [workDecrease, hfirst]
  dsimp only
  rw [hsecond]
  rfl

theorem workIncrease_of_movesOn (moves : g.MovesOn) : g.workIncrease = g.workNext .increase := by
  unfold workIncrease
  split
  · rename_i anchor hanchor hfresh
    rcases moves with hnone | hspent
    · exact absurd (hanchor.symm.trans hnone) (by simp)
    · exact absurd (hfresh.symm.trans hspent) (by simp)
  · rfl

theorem workIncrease_of_not_movesOn (stays : ¬g.MovesOn) :
    ∃ anchor, g.workIncrease = .ok (g.workAnchor anchor) := by
  unfold workIncrease
  cases hanchor : g.cursor.anchor? with
  | none => exact absurd (Or.inl hanchor) stays
  | some anchor =>
    cases hspent : g.cursor.anchorSpent with
    | false => exact ⟨anchor, rfl⟩
    | true => exact absurd (Or.inr hspent) stays

/-- A stitch into the next live one, which is not a ring, takes it off the front of the outline and
puts itself at the back. -/
theorem exists_workNext (stitch : Stitch) (hlen : 1 ≤ g.outline.length)
    (hring : ∀ id ∈ g.outline.take 1, g.isRing id = false) :
    ∃ h, g.workNext stitch = .ok h ∧ h.outline = g.outline.drop 1 ++ [g.size] := by
  cases hout : g.outline with
  | nil => simp [hout] at hlen
  | cons front rest =>
    have hfront : g.isRing front = false := hring front (by simp [hout])
    refine ⟨_, workNext_of_take? stitch (take?_of_not_ring hout hfront), ?_⟩
    rw [weaveNext, outline_weave]
    rfl

theorem exists_workDecrease (hlen : 2 ≤ g.outline.length)
    (hring : ∀ id ∈ g.outline.take 2, g.isRing id = false) :
    ∃ h, g.workDecrease = .ok h ∧ h.outline = g.outline.drop 2 ++ [g.size] := by
  match hout : g.outline with
  | [] => simp [hout] at hlen
  | [front] => simp [hout] at hlen
  | middle :: under :: rest =>
    have hmiddle : g.isRing middle = false := hring middle (by simp [hout])
    have hunder : g.isRing under = false := hring under (by simp [hout])
    have hfirst := take?_of_not_ring hout hmiddle
    refine ⟨_, workDecrease_of_take? hfirst (take?_of_not_ring rfl hunder), ?_⟩
    rw [weaveOver, outline_weave]
    rfl

/-- The oldest `n` live stitches are there to be taken up: none of them is a ring. -/
structure Ready (g : Fabric) (n : Nat) : Prop where
  outline_lt : ∀ id ∈ g.outline, id < g.size
  le_length : n ≤ g.outline.length
  not_ring : ∀ id ∈ g.outline.take n, g.isRing id = false

theorem Ready.mono {m n : Nat} (ready : g.Ready n) (hle : m ≤ n) : g.Ready m where
  outline_lt := ready.outline_lt
  le_length := Nat.le_trans hle ready.le_length
  not_ring id hid := ready.not_ring id (List.take_subset_take_left _ hle hid)

/-- A plain stitch succeeds if the live stitches that it takes up are ready. -/
theorem exists_apply (plain : i.isPlain = true) (ready : g.Ready (g.need i)) :
    ∃ h, g.apply i = .ok h ∧ h.outline = g.outline.drop (g.need i) ++ [g.size] := by
  obtain ⟨-, hlen, hring⟩ := ready
  cases i with
  | single =>
    rw [need_single] at hlen hring ⊢
    exact exists_workNext .single hlen hring
  | increase =>
    by_cases moves : g.MovesOn
    · have hneed : g.need .increase = 1 := if_pos moves
      rw [hneed] at hlen hring ⊢
      rw [apply, workIncrease_of_movesOn moves]
      exact exists_workNext .increase hlen hring
    · have hneed : g.need .increase = 0 := if_neg moves
      obtain ⟨anchor, hshare⟩ := workIncrease_of_not_movesOn moves
      refine ⟨_, hshare, ?_⟩
      rw [hneed, List.drop_zero, workAnchor_eq, weaveShared, outline_weave]
      split <;> rfl
  | decrease =>
    rw [need_decrease] at hlen hring ⊢
    exact exists_workDecrease hlen hring
  | loop | chain | magicRing | slip | join | finishOff => simp [Instruction.isPlain] at plain

/-- A plain stitch leaves the live stitches that come after those it takes up ready. -/
theorem Ready.apply {n : Nat} (ready : g.Ready (g.need i + n)) (plain : i.isPlain = true)
    (happly : g.apply i = .ok h) (hout : h.outline = g.outline.drop (g.need i) ++ [g.size]) :
    h.Ready n := by
  obtain ⟨hsize, -, -⟩ := counts_of_apply plain happly
  have hlen := ready.le_length
  have hfew : n ≤ (g.outline.drop (g.need i)).length := by
    rw [List.length_drop]
    omega
  refine ⟨fun id hid => ?_, ?_, fun id hid => ?_⟩
  · rw [hout] at hid
    rcases List.mem_append.1 hid with hold | hnew
    · have := ready.outline_lt id (List.mem_of_mem_drop hold)
      omega
    · rw [List.mem_singleton] at hnew
      omega
  · rw [hout, List.length_append]
    omega
  · rw [hout, List.take_append_of_le_length hfew, List.take_drop] at hid
    rw [isRing_of_apply plain happly]
    split
    · rfl
    · exact ready.not_ring id (List.mem_of_mem_drop hid)

/-! ## Working a list of stitches -/

/-- What instructions take up once the round is under way. -/
def totalUptake (instructions : List Instruction) : Nat :=
  (instructions.map (·.uptake)).foldr (· + ·) 0

/-- What instructions take up from a fabric.  Only for the first of them it matters whether the
stitch worked into last can be shared. -/
def totalNeed (g : Fabric) : List Instruction → Nat
  | [] => 0
  | i :: rest => g.need i + totalUptake rest

theorem totalNeed_of_not_movesOn (stays : ¬g.MovesOn) (instructions : List Instruction) :
    g.totalNeed instructions = totalUptake instructions := by
  cases instructions with
  | nil => rfl
  | cons i rest =>
    rw [totalNeed, need, if_neg stays]
    rfl

theorem totalNeed_of_movesOn (moves : g.MovesOn) (round : Round) :
    g.totalNeed round = Round.demand round := by
  cases round with
  | nil => rfl
  | cons i rest =>
    rw [totalNeed, need, if_pos moves]
    rfl

theorem applyAll_cons_ok {k : Fabric} {rest : List Instruction} (happly : g.apply i = .ok h)
    (hrest : h.applyAll rest = .ok k) : g.applyAll (i :: rest) = .ok k := by
  simp only [applyAll, happly, hrest]

theorem exists_of_applyAll_cons {k : Fabric} {rest : List Instruction}
    (hall : g.applyAll (i :: rest) = .ok k) :
    ∃ h, g.apply i = .ok h ∧ h.applyAll rest = .ok k := by
  cases happly : g.apply i with
  | error fault => simp [applyAll, happly] at hall
  | ok h =>
    cases hrest : h.applyAll rest with
    | error halt => simp [applyAll, happly, hrest] at hall
    | ok last =>
      simp only [applyAll, happly, hrest, Except.ok.injEq] at hall
      exact ⟨h, rfl, hall ▸ hrest⟩

theorem apply_eq_ok_worked (h : (g.applyAll [i]).isOk = true) :
    g.apply i = .ok (worked (g.applyAll [i])) := by
  obtain ⟨k, happly, -⟩ := exists_of_applyAll_cons (eq_ok_worked h)
  rw [applyAll_cons_ok happly rfl, happly, worked_ok]

variable {instructions : List Instruction}

theorem counts_of_applyAll (plain : ∀ i ∈ instructions, i.isPlain = true)
    (hall : g.applyAll instructions = .ok h) :
    h.size = g.size + instructions.length ∧
      h.consumed = g.consumed + g.totalNeed instructions := by
  induction instructions generalizing g with
  | nil =>
    obtain rfl := Except.ok.inj hall
    exact ⟨rfl, rfl⟩
  | cons i rest ih =>
    obtain ⟨middle, happly, hrest⟩ := exists_of_applyAll_cons hall
    obtain ⟨hsize, hconsumed, hstays⟩ := counts_of_apply (plain i (List.mem_cons_self ..)) happly
    obtain ⟨ihsize, ihconsumed⟩ := ih (fun j hj => plain j (List.mem_cons_of_mem _ hj)) hrest
    rw [totalNeed_of_not_movesOn hstays] at ihconsumed
    rw [totalNeed, List.length_cons]
    omega

/-- Plain stitches make no rings, and leave the older nodes what they were. -/
theorem isRing_of_applyAll (plain : ∀ i ∈ instructions, i.isPlain = true)
    (hall : g.applyAll instructions = .ok h) (id : Nat) :
    h.isRing id = if g.size ≤ id then false else g.isRing id := by
  induction instructions generalizing g with
  | nil =>
    obtain rfl := Except.ok.inj hall
    split
    · rename_i hid
      exact isRing_of_size_le hid
    · rfl
  | cons i rest ih =>
    have hplain := plain i (List.mem_cons_self ..)
    obtain ⟨middle, happly, hrest⟩ := exists_of_applyAll_cons hall
    obtain ⟨hsize, -, -⟩ := counts_of_apply hplain happly
    rw [ih (fun j hj => plain j (List.mem_cons_of_mem _ hj)) hrest,
      isRing_of_apply hplain happly, hsize]
    by_cases hid : g.size ≤ id
    · by_cases hnew : id = g.size
      · simp [hnew]
      · have : g.size + 1 ≤ id := by omega
        simp [this, hid]
    · have hlow : ¬g.size + 1 ≤ id := by omega
      have hne : id ≠ g.size := by omega
      simp [hlow, hid, hne]

/-- Plain stitches take the oldest live stitches off the front of the outline and put themselves at
the back in the order of making. -/
theorem exists_applyAll (plain : ∀ i ∈ instructions, i.isPlain = true)
    (ready : g.Ready (g.totalNeed instructions)) :
    ∃ h, g.applyAll instructions = .ok h ∧
      h.outline = g.outline.drop (g.totalNeed instructions) ++
        List.range' g.size instructions.length := by
  induction instructions generalizing g with
  | nil => exact ⟨g, rfl, by simp [totalNeed]⟩
  | cons i rest ih =>
    have hplain := plain i (List.mem_cons_self ..)
    obtain ⟨middle, happly, hout⟩ := exists_apply hplain (ready.mono (Nat.le_add_right _ _))
    obtain ⟨hsize, -, hstays⟩ := counts_of_apply hplain happly
    have hneed := totalNeed_of_not_movesOn hstays rest
    obtain ⟨last, hrest, hlast⟩ := ih (fun j hj => plain j (List.mem_cons_of_mem _ hj))
      (hneed ▸ ready.apply hplain happly hout)
    have hfew : totalUptake rest ≤ (g.outline.drop (g.need i)).length := by
      have hlen : g.need i + totalUptake rest ≤ g.outline.length := ready.le_length
      rw [List.length_drop]
      omega
    refine ⟨last, applyAll_cons_ok happly hrest, ?_⟩
    calc last.outline
        = (g.outline.drop (g.need i) ++ [g.size]).drop (totalUptake rest) ++
            List.range' (g.size + 1) rest.length := by rw [hlast, hneed, hout, hsize]
      _ = g.outline.drop (g.need i + totalUptake rest) ++
            (g.size :: List.range' (g.size + 1) rest.length) := by
          rw [List.drop_append_of_le_length hfew, List.drop_drop, List.append_assoc]
          rfl
      _ = g.outline.drop (g.totalNeed (i :: rest)) ++
            List.range' g.size (i :: rest).length := by
          rw [totalNeed, List.length_cons, List.range'_succ]

/-! ## Working a round -/

theorem exists_of_workRound {index : Nat} {round : Round}
    (hwork : g.workRound index round = .ok h) :
    ∃ k, (g.beginRound round.length).applyAll round = .ok k ∧ h = k.endRound := by
  cases hall : (g.beginRound round.length).applyAll round with
  | error halt => simp [workRound, hall] at hwork
  | ok k =>
    simp only [workRound, hall, Except.ok.injEq] at hwork
    exact ⟨k, rfl, hwork.symm⟩

theorem exists_of_workRounds_cons {index : Nat} {round : Round} {rest : List Round}
    (hwork : g.workRounds index (round :: rest) = .ok h) :
    ∃ k, g.workRound index round = .ok k ∧ k.workRounds (index + 1) rest = .ok h := by
  cases hround : g.workRound index round with
  | error halt => simp [workRounds, hround] at hwork
  | ok k =>
    rw [workRounds, hround] at hwork
    exact ⟨k, rfl, hwork⟩

theorem workRound_ok {index : Nat} {round : Round} {k : Fabric}
    (hall : (g.beginRound round.length).applyAll round = .ok k) :
    g.workRound index round = .ok k.endRound := by
  simp only [workRound, hall]

theorem outline_beginRound (g : Fabric) (length : Nat) :
    (g.beginRound length).outline = g.outline := rfl

theorem size_beginRound (g : Fabric) (length : Nat) : (g.beginRound length).size = g.size := rfl

/-- The end of a round takes a ring off the front of the outline if one was worked into. -/
theorem retireRing_eq (g : Fabric) :
    g.retireRing =
      if g.cursor.ringWorked = true ∧ g.outline.head?.any g.isRing = true then
        { g with outline := g.outline.tail }
      else g := by
  unfold retireRing
  cases hout : g.outline with
  | nil => simp
  | cons front rest =>
    cases g.cursor.ringWorked with
    | false => simp
    | true => simp

/-- The end of a round makes no node and takes up no stitch. -/
theorem round_endRound (g : Fabric) : g.endRound.cursor.round = g.cursor.round + 1 := by
  rw [endRound, retireRing_eq]
  split <;> rfl

/-- The end of a round counts it, if it was not counted for its stitches. -/
theorem roundsUsed_le_endRound (g : Fabric) : g.roundsUsed ≤ g.endRound.cursor.round := by
  rw [round_endRound, roundsUsed]
  split <;> omega

theorem nodes_endRound (g : Fabric) :
    g.endRound.nodes = g.nodes ∧ g.endRound.consumed = g.consumed := by
  have hretire : g.retireRing.nodes = g.nodes ∧ g.retireRing.consumed = g.consumed := by
    unfold retireRing
    split
    · split <;> exact ⟨rfl, rfl⟩
    · exact ⟨rfl, rfl⟩
  exact hretire

theorem isRing_endRound (g : Fabric) (id : Nat) : g.endRound.isRing id = g.isRing id := by
  rw [isRing, node?, (nodes_endRound g).1, isRing, node?]

/-- No ring leaves the outline at the end of a round if a stitch is at the front. -/
theorem outline_endRound_of_stitch (hring : ∀ id ∈ g.outline, g.isRing id = false) :
    g.endRound.outline = g.outline := by
  have hretire : g.retireRing = g := by
    unfold retireRing
    split
    · rename_i front rest _ hout
      have hfront : g.isRing front = false := hring front (by simp [hout])
      simp [hfront]
    · rfl
  rw [endRound, hretire]

/-- **The count of a round is its work.**  A round of plain stitches that is worked makes a node for
each of them and takes up what it demands. -/
theorem counts_of_workRound {index : Nat} {round : Round} (plain : ∀ i ∈ round, i.isPlain = true)
    (hwork : g.workRound index round = .ok h) :
    h.size = g.size + round.length ∧ h.consumed = g.consumed + Round.demand round := by
  obtain ⟨k, hall, rfl⟩ := exists_of_workRound hwork
  obtain ⟨hnodes, hconsumed⟩ := nodes_endRound k
  obtain ⟨hsize, hcount⟩ := counts_of_applyAll plain hall
  rw [totalNeed_of_movesOn (movesOn_beginRound g _)] at hcount
  exact ⟨by rw [size, hnodes]; exact hsize, by rw [hconsumed]; exact hcount⟩

/-- Only the stitches of the last round are live. -/
def OnlyLive (g : Fabric) (start count : Nat) : Prop :=
  g.outline = List.range' start count ∧ g.size = start + count ∧
    ∀ id ∈ g.outline, g.isRing id = false

/-- A round that demands all the live stitches, none of which is a ring, leaves only its own. -/
theorem exists_workRound (index : Nat) {start : Nat} {round : Round}
    (plain : ∀ i ∈ round, i.isPlain = true) (live : g.OnlyLive start (Round.demand round)) :
    ∃ h, g.workRound index round = .ok h ∧ h.OnlyLive g.size round.length := by
  obtain ⟨hout, hsize, hring⟩ := live
  have hneed := totalNeed_of_movesOn (movesOn_beginRound g round.length) round
  have hlen : g.outline.length = Round.demand round := by rw [hout, List.length_range']
  have ready : (g.beginRound round.length).Ready (Round.demand round) := by
    refine ⟨fun id hid => ?_, Nat.le_of_eq hlen.symm, fun id hid => ?_⟩
    · have hmem : id ∈ List.range' start (Round.demand round) := hout ▸ hid
      rw [List.mem_range'_1] at hmem
      exact hsize ▸ hmem.2
    · exact hring id (List.mem_of_mem_take hid)
  obtain ⟨k, hall, hlive⟩ := exists_applyAll plain (hneed ▸ ready)
  have hlive' : k.outline = List.range' g.size round.length := by
    rw [hlive, hneed, outline_beginRound, List.drop_of_length_le (Nat.le_of_eq hlen),
      List.nil_append, size_beginRound]
  have hstitch : ∀ id ∈ k.outline, k.isRing id = false := by
    intro id hid
    rw [hlive', List.mem_range'_1] at hid
    rw [isRing_of_applyAll plain hall]
    exact if_pos hid.1
  have hwork : g.workRound index round = .ok k.endRound := workRound_ok hall
  refine ⟨k.endRound, hwork, ?_, (counts_of_workRound plain hwork).1, ?_⟩
  · rw [outline_endRound_of_stitch hstitch, hlive']
  · rw [outline_endRound_of_stitch hstitch]
    intro id hid
    rw [isRing_endRound]
    exact hstitch id hid

/-- A ring that was worked into stays marked until the round ends. -/
theorem ringWorked_of_apply (plain : i.isPlain = true) (happly : g.apply i = .ok h)
    (hworked : g.cursor.ringWorked = true) : h.cursor.ringWorked = true := by
  have htake : ∀ {f k : Fabric} {front : Nat}, f.take? = some (front, k) →
      f.cursor.ringWorked = true → k.cursor.ringWorked = true := by
    intro f k front htake hf
    obtain ⟨-, ⟨-, rfl⟩ | ⟨-, rfl⟩⟩ := take?_eq_some htake
    · rfl
    · exact hf
  cases works_of_apply happly with
  | single take => rw [weaveNext, cursor_weave]; exact htake take hworked
  | moveOn _ take => rw [weaveNext, cursor_weave]; exact htake take hworked
  | share _ _ =>
    rw [weaveShared, cursor_weave]
    split
    · rfl
    · exact hworked
  | decrease first second =>
    rw [weaveOver, cursor_weave]
    exact htake second (htake first hworked)
  | loop | chain | magicRing | slip | join | finishOff => simp [Instruction.isPlain] at plain

theorem ringWorked_of_applyAll (plain : ∀ i ∈ instructions, i.isPlain = true)
    (hall : g.applyAll instructions = .ok h) (hworked : g.cursor.ringWorked = true) :
    h.cursor.ringWorked = true := by
  induction instructions generalizing g with
  | nil => exact Except.ok.inj hall ▸ hworked
  | cons i rest ih =>
    obtain ⟨middle, happly, hrest⟩ := exists_of_applyAll_cons hall
    exact ih (fun j hj => plain j (List.mem_cons_of_mem _ hj)) hrest
      (ringWorked_of_apply (plain i (List.mem_cons_self ..)) happly hworked)

/-- A stitch that takes up one live stitch can be worked into a ring, which stays live. -/
theorem exists_apply_of_ring {ring : Nat} (plain : i.isPlain = true)
    (hneeds : Round.firstNeeds i = 1) (moves : g.MovesOn) (hout : g.outline = [ring])
    (hring : g.isRing ring = true) :
    ∃ h, g.apply i = .ok h ∧ h.outline = [ring, g.size] ∧ h.cursor.ringWorked = true := by
  have htake := take?_of_ring hout hring
  have hweave : ∀ stitch, (g.takeRing.weaveNext stitch ring).outline = [ring, g.size] ∧
      (g.takeRing.weaveNext stitch ring).cursor.ringWorked = true := by
    intro stitch
    rw [weaveNext, outline_weave, cursor_weave]
    refine ⟨?_, rfl⟩
    show g.outline ++ [g.size] = _
    rw [hout]
    rfl
  cases i with
  | single => exact ⟨_, workNext_of_take? .single htake, hweave .single⟩
  | increase =>
    rw [apply, workIncrease_of_movesOn moves]
    exact ⟨_, workNext_of_take? .increase htake, hweave .increase⟩
  | decrease =>
    simp [Round.firstNeeds, Instruction.needs?, Instruction.stitch, Stitch.needs?] at hneeds
  | loop | chain | magicRing | slip | join | finishOff => simp [Instruction.isPlain] at plain

theorem one_le_firstNeeds (plain : i.isPlain = true) : 1 ≤ Round.firstNeeds i := by
  cases i with
  | single | increase | decrease => decide
  | loop | chain | magicRing | slip | join | finishOff => simp [Instruction.isPlain] at plain

/-- Stitches that take up one live stitch between them can be worked into a ring.  The first of them
marks the ring, and the others share the stitch in it. -/
theorem exists_applyAll_of_ring {ring : Nat} (plain : ∀ i ∈ instructions, i.isPlain = true)
    (hdemand : Round.demand instructions = 1) (moves : g.MovesOn) (hout : g.outline = [ring])
    (hring : g.isRing ring = true) :
    ∃ h, g.applyAll instructions = .ok h ∧
      h.outline = ring :: List.range' g.size instructions.length ∧
      h.cursor.ringWorked = true := by
  cases instructions with
  | nil => simp [Round.demand] at hdemand
  | cons i rest =>
    have hlt : ring < g.size := lt_size_of_isRing hring
    have hplain := plain i (List.mem_cons_self ..)
    have hplain' : ∀ j ∈ rest, j.isPlain = true := fun j hj => plain j (List.mem_cons_of_mem _ hj)
    have hsum : Round.firstNeeds i + totalUptake rest = 1 := hdemand
    have hfirst := one_le_firstNeeds hplain
    obtain ⟨middle, happly, hmiddle, hworked⟩ :=
      exists_apply_of_ring hplain (by omega) moves hout hring
    obtain ⟨hsize, -, hstays⟩ := counts_of_apply hplain happly
    have hnone : middle.totalNeed rest = 0 := by
      rw [totalNeed_of_not_movesOn hstays]
      omega
    have ready : middle.Ready (middle.totalNeed rest) := by
      rw [hnone]
      refine ⟨fun id hid => ?_, Nat.zero_le _, by simp⟩
      rw [hmiddle] at hid
      simp only [List.mem_cons, List.not_mem_nil, or_false] at hid
      omega
    obtain ⟨k, hrest, hlive⟩ := exists_applyAll hplain' ready
    refine ⟨k, applyAll_cons_ok happly hrest, ?_, ringWorked_of_applyAll hplain' hrest hworked⟩
    rw [hlive, hnone, hmiddle, hsize, List.drop_zero, List.length_cons, List.range'_succ]
    rfl

/-- A round that demands one stitch can be worked into a ring, and takes the ring with it. -/
theorem exists_workRound_of_ring (index : Nat) {ring : Nat} {round : Round}
    (plain : ∀ i ∈ round, i.isPlain = true) (hdemand : Round.demand round = 1)
    (hout : g.outline = [ring]) (hring : g.isRing ring = true) :
    ∃ h, g.workRound index round = .ok h ∧ h.OnlyLive g.size round.length := by
  have hlt : ring < g.size := lt_size_of_isRing hring
  obtain ⟨k, hall, hlive, hworked⟩ :=
    exists_applyAll_of_ring plain hdemand (movesOn_beginRound g round.length) hout hring
  rw [size_beginRound] at hlive
  have hring' : k.isRing ring = true := by
    rw [isRing_of_applyAll plain hall, size_beginRound, if_neg (Nat.not_le_of_lt hlt)]
    exact hring
  have hretire : k.endRound.outline = List.range' g.size round.length := by
    rw [endRound, retireRing, hworked, hlive]
    simp [hring']
  have hwork : g.workRound index round = .ok k.endRound := workRound_ok hall
  refine ⟨k.endRound, hwork, hretire, (counts_of_workRound plain hwork).1, fun id hid => ?_⟩
  rw [hretire, List.mem_range'_1] at hid
  rw [isRing_endRound, isRing_of_applyAll plain hall]
  exact if_pos hid.1

end Fabric

end Crochet
