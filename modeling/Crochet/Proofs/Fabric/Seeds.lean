import Crochet.Fabric.Join
import Crochet.Proofs.Decimal.Quotient
import Crochet.Proofs.Fabric.Worked

/-!
# Where stitches start from

The place a stitch starts from depends on its round and on how far the round had come, as a
double.  No two stitches of a fabric share both, as long as the rounds are counted on: a fabric
that was worked counts its own rounds, and joining it with another one counts those of the other
one behind them (`Stacked`).

A fabric that was joined goes on with the round of its first part that is open and does not count
those of the second.  The next round that is begun on it, or a third part joined to its right, can
start from the same place as the second part (`seeds_coincide`).
-/

namespace Crochet

/-! ## Shares of a round -/

/-- Whether a share of a round is less than another one. -/
def Share.Before (s t : Share) : Prop := s.made * t.total < t.made * s.total

/-- The round gets further with every stitch, whether it is a round of a pattern or a loose one. -/
theorem Share.before_of_lt {m n : Nat} (length : Nat) (h : m < n) :
    Share.Before ⟨m, max length (m + 1)⟩ ⟨n, max length (n + 1)⟩ := by
  show m * max length (n + 1) < n * max length (m + 1)
  rcases Nat.le_total length (n + 1) with hshort | hlong
  · have hstep : n * (m + 1) ≤ n * max length (m + 1) := Nat.mul_le_mul_left n (Nat.le_max_right ..)
    rw [Nat.max_eq_right hshort]
    rw [Nat.mul_add, Nat.mul_comm n m] at hstep
    rw [Nat.mul_add]
    omega
  · rw [Nat.max_eq_left hlong, Nat.max_eq_left (by omega)]
    exact Nat.mul_lt_mul_of_pos_right h (by omega)

/-- Different shares of short rounds are different doubles. -/
theorem Share.toFloat_ne {s t : Share} (hs : s.made < s.total) (ht : t.made < t.total)
    (hs' : s.total ^ 2 < 2 ^ 53) (ht' : t.total ^ 2 < 2 ^ 53) (before : s.Before t) :
    s.toFloat ≠ t.toFloat := by
  refine Decimal.toFloat_div_ne hs ht ?_ (Nat.ne_of_lt before)
  rcases Nat.le_total s.total t.total with h | h
  · calc s.total * t.total ≤ t.total ^ 2 := by rw [pow_two]; exact Nat.mul_le_mul_right _ h
      _ < 2 ^ 53 := ht'
  · calc s.total * t.total ≤ s.total ^ 2 := by rw [pow_two]; exact Nat.mul_le_mul_left _ h
      _ < 2 ^ 53 := hs'

namespace Fabric

/-! ## Dates -/

/-- When the stitches of a fabric were made: the round of each, and how far it had come. -/
def dates (g : Fabric) : List (Nat × Share) :=
  g.nodes.toList.map fun node => (node.round, node.progress)

theorem dates_pushNode (g : Fabric) (stitch : Stitch) (last under : Nat) :
    (g.pushNode stitch last under).dates = g.dates ++ [(g.cursor.round, g.share)] := by
  have hmap := map_nodes_pushNode g stitch last under (fun node => (node.round, node.progress))
    fun _ _ => rfl
  simpa [dates, newNode] using congrArg Array.toList hmap

theorem dates_join (g other : Fabric) :
    (g.join other).dates = g.dates ++ other.dates.map fun d => (d.1 + g.roundsUsed, d.2) := by
  simp [dates, join, Node.shift]

/-- Dates in order of making, of which no two are the same. -/
structure InOrder (dates : List (Nat × Share)) : Prop where
  apart : dates.Pairwise fun d d' => d.1 = d'.1 → d.2.Before d'.2
  proper : ∀ d ∈ dates, d.2.made < d.2.total

/-- Dates behind all rounds of others stay in order. -/
theorem InOrder.append_shift {dates others : List (Nat × Share)} {rounds : Nat}
    (first : InOrder dates) (counted : ∀ d ∈ dates, d.1 < rounds) (second : InOrder others) :
    InOrder (dates ++ others.map fun d => (d.1 + rounds, d.2)) where
  apart := by
    refine List.pairwise_append.2 ⟨first.apart, ?_, ?_⟩
    · rw [List.pairwise_map]
      exact second.apart.imp fun h heq => h (Nat.add_right_cancel heq)
    · intro d hd d' hd' heq
      obtain ⟨e, -, rfl⟩ := List.mem_map.1 hd'
      have hlt := counted d hd
      have heq' : d.1 = e.1 + rounds := heq
      omega
  proper := by
    intro d hd
    rcases List.mem_append.1 hd with hd | hd
    · exact first.proper d hd
    · obtain ⟨e, he, rfl⟩ := List.mem_map.1 hd
      exact second.proper e he

/-! ## What instructions do to the dates -/

/-- Whether two fabrics have the same dates and are equally far into the same round. -/
structure InStep (g h : Fabric) : Prop where
  dates : h.dates = g.dates
  round : h.cursor.round = g.cursor.round
  length : h.cursor.roundLength = g.cursor.roundLength
  made : h.cursor.made = g.cursor.made

/-- Whether a fabric has one stitch more in its round than another one. -/
structure OneOn (g h : Fabric) : Prop where
  dates : h.dates = g.dates ++ [(g.cursor.round, g.share)]
  round : h.cursor.round = g.cursor.round
  length : h.cursor.roundLength = g.cursor.roundLength
  made : h.cursor.made = g.cursor.made + 1

theorem InStep.share {g h : Fabric} (inStep : InStep g h) : h.share = g.share := by
  rw [Fabric.share, Fabric.share, inStep.made, inStep.length]

theorem InStep.of_taken {g h : Fabric} (taken : g.Taken h) : InStep g h where
  dates := by rw [Fabric.dates, taken.nodes, Fabric.dates]
  round := taken.round
  length := taken.length
  made := taken.made

theorem InStep.weave {g h : Fabric} (inStep : InStep g h) (stitch : Stitch) (under : Nat)
    (ends : List Nat) (corners : List (Nat × Nat)) :
    OneOn g (h.weave stitch under ends corners) where
  dates := by
    rw [← inStep.dates, ← inStep.round, ← inStep.share, ← dates_pushNode h stitch h.newest under,
      weave_eq]
    rfl
  round := by rw [cursor_weave, ← inStep.round]
  length := by rw [cursor_weave, ← inStep.length]
  made := by rw [cursor_weave, ← inStep.made]

/-- An instruction that makes a node dates it in the round in hand, and no other instruction does
anything to the dates. -/
theorem dates_of_apply {g h : Fabric} {i : Instruction} (happly : g.apply i = .ok h) :
    if i.stitch.makesNode then OneOn g h else InStep g h := by
  by_cases plain : i.isPlain = true
  · obtain ⟨t, under, ends, corners, taken, -, rfl⟩ := exists_weave_of_apply plain happly
    rw [if_pos (Instruction.makesNode_of_isPlain plain).1]
    exact (InStep.of_taken taken).weave ..
  · cases works_of_apply happly with
    | loop => exact ⟨dates_pushNode g .loop g.size g.size, rfl, rfl, rfl⟩
    | chain | magicRing => exact ⟨rfl, rfl, rfl, rfl⟩
    | slip _ _ apart =>
      rw [addEdge, if_neg apart]
      exact ⟨rfl, rfl, rfl, rfl⟩
    | join =>
      show InStep g _
      rw [addJoint]
      split <;> exact ⟨rfl, rfl, rfl, rfl⟩
    | finishOff =>
      rw [workFinish_eq]
      exact ⟨rfl, rfl, rfl, rfl⟩
    | single | moveOn | share | decrease => exact absurd rfl plain

/-! ## Fabrics that were worked -/

/-- The dates of a fabric are in order, and go on with the round in hand. -/
structure Dated (g : Fabric) : Prop extends InOrder g.dates where
  inHand : ∀ d ∈ g.dates, d.1 = g.cursor.round →
    d.2.made < g.cursor.made ∧ d.2.total = max g.cursor.roundLength (d.2.made + 1)

/-- The dates of a fabric are in order, and its cursor counts its rounds. -/
structure Counted (g : Fabric) : Prop extends Dated g where
  counted : ∀ d ∈ g.dates, d.1 < g.roundsUsed

variable {g h : Fabric}

theorem Dated.of_inStep (dated : g.Dated) (inStep : InStep g h) : h.Dated := by
  constructor
  · rw [inStep.dates]
    exact dated.toInOrder
  · rw [inStep.dates, inStep.round, inStep.length, inStep.made]
    exact dated.inHand

/-- A stitch is dated after all others of its round. -/
theorem Dated.of_oneOn (dated : g.Dated) (oneOn : OneOn g h) : h.Dated := by
  have hnew : g.share.made < g.share.total := Nat.le_max_right ..
  refine ⟨⟨?_, ?_⟩, ?_⟩ <;> rw [oneOn.dates]
  · refine List.pairwise_append.2 ⟨dated.apart, List.pairwise_singleton _ _, ?_⟩
    intro d hd d' hd' hsame
    obtain rfl := List.mem_singleton.1 hd'
    obtain ⟨hbefore, htotal⟩ := dated.inHand d hd hsame
    have hshare : d.2 = ⟨d.2.made, max g.cursor.roundLength (d.2.made + 1)⟩ := by
      rw [← htotal]
    rw [hshare]
    exact Share.before_of_lt g.cursor.roundLength hbefore
  · intro d hd
    rcases List.mem_append.1 hd with hd | hd
    · exact dated.proper d hd
    · obtain rfl := List.mem_singleton.1 hd
      exact hnew
  · intro d hd hsame
    rw [oneOn.round] at hsame
    rw [oneOn.length, oneOn.made]
    rcases List.mem_append.1 hd with hd | hd
    · obtain ⟨hbefore, htotal⟩ := dated.inHand d hd hsame
      exact ⟨Nat.lt_succ_of_lt hbefore, htotal⟩
    · obtain rfl := List.mem_singleton.1 hd
      exact ⟨Nat.lt_succ_self _, rfl⟩

theorem Dated.apply {i : Instruction} (dated : g.Dated) (happly : g.apply i = .ok h) :
    h.Dated := by
  have hdates := dates_of_apply happly
  split at hdates
  · exact dated.of_oneOn hdates
  · exact dated.of_inStep hdates

namespace Counted

theorem empty : Fabric.empty.Counted := ⟨⟨⟨.nil, nofun⟩, nofun⟩, nofun⟩

theorem apply {i : Instruction} (counted : g.Counted) (happly : g.apply i = .ok h) :
    h.Counted := by
  refine ⟨counted.toDated.apply happly, ?_⟩
  have hdates := dates_of_apply happly
  split at hdates
  · have hused : h.roundsUsed = g.cursor.round + 1 := by
      rw [roundsUsed, hdates.round, hdates.made, if_pos (Nat.succ_pos _)]
    rw [hdates.dates, hused]
    intro d hd
    rcases List.mem_append.1 hd with hd | hd
    · have hlt := counted.counted d hd
      rw [roundsUsed] at hlt
      split at hlt <;> omega
    · obtain rfl := List.mem_singleton.1 hd
      exact Nat.lt_succ_self _
  · rw [hdates.dates, roundsUsed, hdates.round, hdates.made]
    exact counted.counted

/-- Where a round begins or ends, no stitch is of the round in hand. -/
theorem turn (counted : g.Counted) (hnodes : h.nodes = g.nodes)
    (hround : g.roundsUsed ≤ h.cursor.round) : h.Counted := by
  have hdates : h.dates = g.dates := by rw [dates, hnodes, dates]
  have hlt : ∀ d ∈ g.dates, d.1 < h.cursor.round := fun d hd =>
    Nat.lt_of_lt_of_le (counted.counted d hd) hround
  refine ⟨⟨?_, ?_⟩, ?_⟩ <;> rw [hdates]
  · exact counted.toInOrder
  · exact fun d hd hsame => absurd hsame (Nat.ne_of_lt (hlt d hd))
  · exact fun d hd => Nat.lt_of_lt_of_le (hlt d hd) (Nat.le_add_right ..)

end Counted

theorem steps_counted : Steps fun _ g => g.Counted where
  apply counted happly := counted.apply happly
  beginRound _ counted := counted.turn rfl (Nat.le_refl _)
  endRound {_ g} counted := counted.turn (nodes_endRound g).1 (roundsUsed_le_endRound g)

theorem WorkedBy.counted {done : List Instruction} (worked : WorkedBy done g) : g.Counted :=
  worked.of_steps steps_counted .empty

/-! ## Fabrics that were joined -/

/-- The fabrics that were worked, and those that join a fabric that was worked with one of them.
What is worked onto them makes no node or goes on with a round that has stitches, which is that of
the first part. -/
inductive Stacked : Fabric → Prop
  | worked {done : List Instruction} {g : Fabric} (worked : WorkedBy done g) : Stacked g
  | join {done : List Instruction} {g other : Fabric} (worked : WorkedBy done g)
      (stacked : Stacked other) : Stacked (g.join other)
  | apply {g h : Fabric} {i : Instruction} (stacked : Stacked g) (works : g.apply i = .ok h)
      (goesOn : 0 < g.cursor.made ∨ i.stitch.makesNode = false) : Stacked h

/-- A round of the first part that has stitches goes on behind the second one. -/
theorem Counted.dated_join {other : Fabric} (counted : g.Counted) (inOrder : InOrder other.dates)
    (begun : 0 < g.cursor.made) : (g.join other).Dated := by
  have hcursor : (g.join other).cursor = g.cursor := rfl
  refine ⟨?_, ?_⟩ <;> rw [dates_join]
  · exact counted.toInOrder.append_shift counted.counted inOrder
  · rw [hcursor]
    intro d hd hsame
    rcases List.mem_append.1 hd with hd | hd
    · exact counted.inHand d hd hsame
    · obtain ⟨e, -, rfl⟩ := List.mem_map.1 hd
      have hsame' : e.1 + g.roundsUsed = g.cursor.round := hsame
      rw [roundsUsed, if_pos begun] at hsame'
      omega

theorem Stacked.dated {g : Fabric} (stacked : g.Stacked) :
    InOrder g.dates ∧ (0 < g.cursor.made → g.Dated) := by
  induction stacked with
  | worked worked => exact ⟨worked.counted.toInOrder, fun _ => worked.counted.toDated⟩
  | join worked _ ih =>
    refine ⟨?_, worked.counted.dated_join ih.1⟩
    rw [dates_join]
    exact worked.counted.toInOrder.append_shift worked.counted.counted ih.1
  | apply _ works goesOn ih =>
    rcases goesOn with begun | ties
    · have dated := (ih.2 begun).apply works
      exact ⟨dated.toInOrder, fun _ => dated⟩
    · have inStep := dates_of_apply works
      rw [ties, if_neg Bool.false_ne_true] at inStep
      rw [inStep.dates, inStep.made]
      exact ⟨ih.1, fun begun => (ih.2 begun).of_inStep inStep⟩

/-- A node and its date are at the same place. -/
theorem getElem_dates {g : Fabric} {i : Nat} {node : Node} (hnode : g.node? i = some node) :
    ∃ hi : i < g.dates.length, g.dates[i] = (node.round, node.progress) := by
  obtain ⟨hi, rfl⟩ := Array.getElem?_eq_some_iff.1 hnode
  exact ⟨by simpa [dates] using hi, by simp [dates]⟩

/-- **No two stitches start from the same place.**  In a fabric that was worked, or that was joined
and has begun no round since, no two nodes have the same round and the same progress, given that
the rounds are short enough for their shares to differ as doubles. -/
theorem seeds_apart {g : Fabric} (stacked : g.Stacked)
    (short : ∀ node ∈ g.nodes, node.progress.total ^ 2 < 2 ^ 53) :
    ∀ i j a b, g.node? i = some a → g.node? j = some b → i ≠ j →
      (a.round, a.progress.toFloat) ≠ (b.round, b.progress.toFloat) := by
  have inOrder := stacked.dated.1
  have hlt : ∀ i j a b, g.node? i = some a → g.node? j = some b → i < j →
      (a.round, a.progress.toFloat) ≠ (b.round, b.progress.toFloat) := by
    intro i j a b ha hb hij heq
    obtain ⟨hround, hprogress⟩ := Prod.mk.inj heq
    obtain ⟨hi, hdate⟩ := getElem_dates ha
    obtain ⟨hj, hdate'⟩ := getElem_dates hb
    have hproper := inOrder.proper _ (List.getElem_mem hi)
    have hproper' := inOrder.proper _ (List.getElem_mem hj)
    have hbefore := List.pairwise_iff_getElem.1 inOrder.apart i j hi hj hij
    rw [hdate] at hproper hbefore
    rw [hdate'] at hproper' hbefore
    have hshort := short a (Array.mem_of_getElem? ha)
    have hshort' := short b (Array.mem_of_getElem? hb)
    exact Share.toFloat_ne hproper hproper' hshort hshort' (hbefore hround) hprogress
  intro i j a b ha hb hne
  rcases Nat.lt_or_gt_of_ne hne with hij | hij
  · exact hlt i j a b ha hb hij
  · exact (hlt j i b a hb ha hij).symm

/-- A disc with a loose stitch, joined to two discs that are joined and tied at their rings, and
then a loose ring. -/
theorem seeds_apart_discs : ∃ g : Fabric, g.Stacked ∧ g.size = 11 ∧
    (∀ node ∈ g.nodes, node.progress.total ^ 2 < 2 ^ 53) ∧
      ∀ i j a b, g.node? i = some a → g.node? j = some b → i ≠ j →
        (a.round, a.progress.toFloat) ≠ (b.round, b.progress.toFloat) := by
  have hworks : ofPattern ⟨[[.loop], [.increase, .increase]]⟩ = .ok _ := rfl
  have hdisc := WorkedBy.of_ofPattern hworks
  have hloose := hdisc.apply (i := .single) rfl
  have htied := (Stacked.join hdisc (.worked hdisc)).apply (i := .join 0 3)
    (workJoin_of_lt (by decide +kernel) (by decide +kernel)) (Or.inr rfl)
  have hstacked := (Stacked.join hloose htied).apply (i := .loop) rfl (Or.inl (by decide +kernel))
  refine ⟨_, hstacked, by decide +kernel, by decide +kernel, ?_⟩
  exact seeds_apart hstacked (by decide +kernel)

/-- A stitch worked onto two rings that were joined starts from the same place as the second ring,
in whose round it is. -/
theorem seeds_coincide : ∃ ring g a b, ofPattern ⟨[[.loop]]⟩ = .ok ring ∧
    (ring.join ring).append ⟨[[.single]]⟩ = .ok g ∧ g.node? 1 = some a ∧ g.node? 2 = some b ∧
      (a.round, a.progress.toFloat) = (b.round, b.progress.toFloat) := by
  refine ⟨_, worked _, ⟨1, 1, 1, 1, .loop, 1, ⟨0, 1⟩⟩, ⟨2, 1, 2, 0, .single, 1, ⟨0, 1⟩⟩, rfl,
    eq_ok_worked ?_, ?_⟩
  · decide +kernel
  · decide +kernel

end Fabric

end Crochet
