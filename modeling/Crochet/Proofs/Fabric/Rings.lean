import Crochet.Proofs.Fabric.Consistency
import Crochet.Proofs.Fabric.WellFormed

/-!
# Rings leave with the round that works into them

A ring is live until a round has worked into it.  The compiler notes that some ring was worked
into, and takes the ring at the front of the outline away when the round ends.  That is the right
ring as long as no increase shares a ring further back, which it can do only right after a loop
that is not the first stitch of the pattern (`Pattern.sparesLoops`); `late_ring_stays` shows what
happens if one does.

`Retiring` is the invariant inside a round.  It is stated of any record `landed` of what was worked
into what and when, so that a stitch that was taken counts as worked into before the new stitch is
woven.
-/

namespace Crochet

/-! ## Patterns that spare late loops -/

/-- Whether the stitch made last is a loop that was not the first stitch of all, after one more
instruction; `begun` says whether there was a stitch before, and `late` whether it was so
already. -/
def Instruction.lateAfter (i : Instruction) (begun late : Bool) : Bool :=
  match i with
  | .loop => begun
  | .single | .increase | .decrease => false
  | _ => late

/-- Whether no increase of a round comes right after a loop that is not the first stitch of all. -/
def Round.sparesLoops (begun late : Bool) : Round → Bool
  | [] => true
  | i :: rest =>
    !(late && i == .increase) &&
      sparesLoops (begun || i.stitch.makesNode) (i.lateAfter begun late) rest

/-- Whether no increase of a list of rounds comes right after a loop that is not the first
stitch. -/
def Round.allSpareLoops (begun : Bool) : List Round → Bool
  | [] => true
  | round :: rest =>
    sparesLoops begun false round &&
      allSpareLoops (begun || round.any fun i => i.stitch.makesNode) rest

/-- Whether no increase of a pattern comes right after a loop that is not its first stitch. -/
def Pattern.sparesLoops (p : Pattern) : Bool := Round.allSpareLoops false p.rounds

namespace Fabric

/-! ## What was worked into what -/

/-- Whether some other node was worked into a node in a round. -/
def WorkedInto (g : Fabric) (ring round : Nat) : Prop :=
  ∃ node ∈ g.nodes, node.id ≠ ring ∧ node.under = ring ∧ node.round = round

theorem workedInto_iff {g : Fabric} {ring round : Nat} :
    g.WorkedInto ring round ↔
      ∃ t ∈ g.nodes.map fun node => (node.id, node.under, node.round),
        t.1 ≠ ring ∧ t.2 = (ring, round) := by
  constructor
  · rintro ⟨node, hmem, hne, rfl, rfl⟩
    exact ⟨_, Array.mem_map.2 ⟨node, hmem, rfl⟩, hne, rfl⟩
  · rintro ⟨_, hmem, hne, ht⟩
    obtain ⟨node, hnode, rfl⟩ := Array.mem_map.1 hmem
    exact ⟨node, hnode, hne, Prod.mk.inj ht⟩

theorem workedInto_pushNode (g : Fabric) (stitch : Stitch) (last under ring round : Nat) :
    (g.pushNode stitch last under).WorkedInto ring round ↔
      g.WorkedInto ring round ∨ g.size ≠ ring ∧ under = ring ∧ g.cursor.round = round := by
  rw [workedInto_iff, workedInto_iff, map_nodes_pushNode g stitch last under _ fun _ _ => rfl]
  simp only [Array.mem_push, newNode]
  constructor
  · rintro ⟨t, hold | rfl, hne, ht⟩
    · exact Or.inl ⟨t, hold, hne, ht⟩
    · exact Or.inr ⟨hne, Prod.mk.inj ht⟩
  · rintro (⟨t, hold, hne, ht⟩ | ⟨hne, rfl, rfl⟩)
    · exact ⟨t, Or.inl hold, hne, ht⟩
    · exact ⟨_, Or.inr rfl, hne, rfl⟩

theorem workedInto_weave {g : Fabric} {under : Nat} (hunder : under < g.size) (stitch : Stitch)
    (ends : List Nat) (corners : List (Nat × Nat)) (ring round : Nat) :
    (g.weave stitch under ends corners).WorkedInto ring round ↔
      g.WorkedInto ring round ∨ ring = under ∧ round = g.cursor.round := by
  have hweave : (g.weave stitch under ends corners).WorkedInto ring round ↔
      (g.pushNode stitch g.newest under).WorkedInto ring round := by
    rw [weave_eq]
    rfl
  rw [hweave, workedInto_pushNode]
  constructor
  · rintro (hold | ⟨-, rfl, rfl⟩)
    · exact Or.inl hold
    · exact Or.inr ⟨rfl, rfl⟩
  · rintro (hold | ⟨rfl, rfl⟩)
    · exact Or.inl hold
    · exact Or.inr ⟨by omega, rfl, rfl⟩

/-- A new ring is worked into nothing but itself. -/
theorem workedInto_workLoop (g : Fabric) (ring round : Nat) :
    g.workLoop.WorkedInto ring round ↔ g.WorkedInto ring round := by
  have hloop : g.workLoop.WorkedInto ring round ↔
      (g.pushNode .loop g.size g.size).WorkedInto ring round := Iff.rfl
  rw [hloop, workedInto_pushNode]
  constructor
  · rintro (hold | ⟨hne, rfl, -⟩)
    · exact hold
    · exact absurd rfl hne
  · exact Or.inl

theorem workedInto_of_nodes {g h : Fabric} (hnodes : h.nodes = g.nodes) (ring round : Nat) :
    h.WorkedInto ring round ↔ g.WorkedInto ring round := by
  rw [WorkedInto, hnodes]
  rfl

/-- Nodes are worked into nodes. -/
theorem WellFormed.workedInto_lt {g : Fabric} (wf : g.WellFormed) {ring round : Nat}
    (worked : g.WorkedInto ring round) : ring < g.size := by
  obtain ⟨node, hmem, hne, rfl, -⟩ := worked
  obtain ⟨i, hnode⟩ := Array.mem_iff_getElem?.1 hmem
  have hi := lt_size_of_node? hnode
  cases hring : node.isRing with
  | true =>
    rw [wf.linked.id_eq hnode] at hne
    exact absurd (wf.linked.ring hnode hring).2.1.symm hne
  | false => exact Nat.lt_trans (wf.linked.stitch hnode hring).2 hi

/-! ## The invariant inside a round -/

/-- Where the rings of a fabric stand, given what was worked into them and in which rounds. -/
structure Retiring (g : Fabric) (landed : Nat → Nat → Prop) : Prop where
  /-- The note that a ring was worked into is about the front of the outline. -/
  marked : g.cursor.ringWorked = true → ∃ ring round, g.outline.head? = some ring ∧
    g.isRing ring = true ∧ landed ring round
  /-- A live ring that was worked into is at the front, and it happened in this round. -/
  live : ∀ {ring round : Nat}, ring ∈ g.outline → g.isRing ring = true → landed ring round →
    g.cursor.ringWorked = true ∧ g.outline.head? = some ring ∧ round = g.cursor.round
  /-- A ring that is gone was worked into, and in one round only. -/
  gone : ∀ {ring : Nat}, ring ∉ g.outline → g.isRing ring = true →
    ∃ round, landed ring round ∧ ∀ other, landed ring other → other = round

namespace Retiring

variable {g h : Fabric} {landed landed' : Nat → Nat → Prop}

/-- Only what was worked into rings counts. -/
theorem congr (retiring : g.Retiring landed)
    (hsame : ∀ ring round, g.isRing ring = true → (landed ring round ↔ landed' ring round)) :
    g.Retiring landed' where
  marked hworked := by
    obtain ⟨ring, round, hhead, hring, hlanded⟩ := retiring.marked hworked
    exact ⟨ring, round, hhead, hring, (hsame ring round hring).1 hlanded⟩
  live hmem hring hlanded := retiring.live hmem hring ((hsame _ _ hring).2 hlanded)
  gone hgone hring := by
    obtain ⟨round, hlanded, honly⟩ := retiring.gone hgone hring
    refine ⟨round, (hsame _ _ hring).1 hlanded, fun other hother => ?_⟩
    exact honly other ((hsame _ _ hring).2 hother)

theorem of_eq (retiring : g.Retiring landed) (hnodes : h.nodes = g.nodes)
    (hout : h.outline = g.outline) (hworked : h.cursor.ringWorked = g.cursor.ringWorked)
    (hround : h.cursor.round = g.cursor.round) : h.Retiring landed := by
  have hkind : ∀ i, h.isRing i = g.isRing i := fun i => by rw [isRing, node?, hnodes]; rfl
  constructor
  · simpa only [hworked, hout, hkind] using retiring.marked
  · simpa only [hworked, hout, hkind, hround] using @retiring.live
  · simpa only [hout, hkind] using @retiring.gone

/-- A ring at the front that is worked into is noted. -/
theorem mark (retiring : g.Retiring landed) {ring : Nat} (hhead : g.outline.head? = some ring)
    (hring : g.isRing ring = true) (hnodes : h.nodes = g.nodes) (hout : h.outline = g.outline)
    (hworked : h.cursor.ringWorked = true) (hround : h.cursor.round = g.cursor.round) :
    h.Retiring fun r k => landed r k ∨ r = ring ∧ k = g.cursor.round := by
  have hkind : ∀ i, h.isRing i = g.isRing i := fun i => by rw [isRing, node?, hnodes]; rfl
  constructor
  · intro _
    exact ⟨ring, g.cursor.round, hout ▸ hhead, (hkind ring).trans hring, Or.inr ⟨rfl, rfl⟩⟩
  · rintro r k hmem hr (hold | ⟨rfl, rfl⟩)
    · rw [hout] at hmem ⊢
      obtain ⟨-, hhead', hk⟩ := retiring.live hmem ((hkind r).symm.trans hr) hold
      exact ⟨hworked, hhead', hk.trans hround.symm⟩
    · exact ⟨hworked, hout ▸ hhead, hround.symm⟩
  · intro r hmem hr
    rw [hout] at hmem
    obtain ⟨k, hlanded, honly⟩ := retiring.gone hmem ((hkind r).symm.trans hr)
    refine ⟨k, Or.inl hlanded, ?_⟩
    rintro other (hother | ⟨rfl, -⟩)
    · exact honly other hother
    · exact absurd (List.mem_of_head? hhead) hmem

/-- A stitch that is no ring can be worked into without a note. -/
theorem land (retiring : g.Retiring landed) {under : Nat} (hring : g.isRing under = false) :
    g.Retiring fun r k => landed r k ∨ r = under ∧ k = g.cursor.round :=
  retiring.congr fun r k hr => by
    constructor
    · exact Or.inl
    · rintro (hold | ⟨rfl, -⟩)
      · exact hold
      · exact absurd (hring.symm.trans hr) Bool.false_ne_true

/-- Where no ring is noted, a live stitch that is no ring can leave the front of the outline. -/
theorem drop (retiring : g.Retiring landed) {front : Nat} (hhead : g.outline.head? = some front)
    (hring : g.isRing front = false) : g.takeFront.Retiring landed := by
  have hnote : g.cursor.ringWorked = false := by
    rw [← Bool.not_eq_true]
    intro hworked
    obtain ⟨ring, -, hhead', hring', -⟩ := retiring.marked hworked
    obtain rfl := Option.some.inj (hhead.symm.trans hhead')
    exact Bool.false_ne_true (hring.symm.trans hring')
  constructor
  · intro hworked
    exact absurd (hnote.symm.trans hworked) Bool.false_ne_true
  · intro r k hmem hr hlanded
    have hworked := (retiring.live (List.mem_of_mem_tail hmem) hr hlanded).1
    exact absurd (hnote.symm.trans hworked) Bool.false_ne_true
  · intro r hmem hr
    refine retiring.gone (fun hold => ?_) hr
    obtain ⟨rest, hout⟩ := List.head?_eq_some_iff.1 hhead
    rw [hout] at hold
    rcases List.mem_cons.1 hold with rfl | hrest
    · exact Bool.false_ne_true (hring.symm.trans hr)
    · exact hmem (by simpa [takeFront, hout] using hrest)

/-- A stitch counts as worked into as soon as it is taken. -/
theorem take (retiring : g.Retiring landed) {under : Nat} (htake : g.take? = some (under, h)) :
    h.Retiring fun r k => landed r k ∨ r = under ∧ k = g.cursor.round := by
  obtain ⟨hhead, ⟨hring, rfl⟩ | ⟨hring, rfl⟩⟩ := take?_eq_some htake
  · exact retiring.mark hhead hring rfl rfl rfl rfl
  · exact (retiring.drop hhead hring).land hring

/-- A stitch that is woven becomes live behind all rings. -/
theorem weave (retiring : g.Retiring landed) {stitch : Stitch} (hstitch : stitch ≠ .loop)
    (under : Nat) (ends : List Nat) (corners : List (Nat × Nat)) :
    (g.weave stitch under ends corners).Retiring landed := by
  have hkind : ∀ {r}, (g.weave stitch under ends corners).isRing r = true →
      r ≠ g.size ∧ g.isRing r = true := by
    intro r hr
    rw [isRing_weave] at hr
    split at hr
    · exact absurd (by simpa using hr) hstitch
    · exact ⟨‹_›, hr⟩
  refine ⟨fun hworked => ?_, fun hmem hr hlanded => ?_, fun hmem hr => ?_⟩
  · rw [cursor_weave] at hworked
    obtain ⟨r, k, hhead, hr, hlanded⟩ := retiring.marked hworked
    refine ⟨r, k, ?_, ?_, hlanded⟩
    · rw [outline_weave, List.head?_append, hhead]
      rfl
    · rw [isRing_weave, if_neg (Nat.ne_of_lt (lt_size_of_isRing hr))]
      exact hr
  · obtain ⟨hne, hr'⟩ := hkind hr
    rw [outline_weave, List.mem_append, List.mem_singleton, or_iff_left hne] at hmem
    obtain ⟨hworked, hhead, hk⟩ := retiring.live hmem hr' hlanded
    rw [cursor_weave, outline_weave, List.head?_append, hhead]
    exact ⟨hworked, rfl, hk⟩
  · obtain ⟨-, hr'⟩ := hkind hr
    rw [outline_weave, List.mem_append, not_or] at hmem
    exact retiring.gone hmem.1 hr'

/-- A new ring becomes live behind all others, and nothing was worked into it yet. -/
theorem workLoop (retiring : g.Retiring landed) (hfresh : ∀ k, ¬landed g.size k) :
    g.workLoop.Retiring landed := by
  have hkind : ∀ {r}, g.workLoop.isRing r = true → r ≠ g.size → g.isRing r = true := by
    intro r hr hne
    rwa [isRing_workLoop, if_neg hne] at hr
  refine ⟨fun hworked => ?_, fun {r k} hmem hr hlanded => ?_, fun {r} hmem hr => ?_⟩
  · obtain ⟨r, k, hhead, hr, hlanded⟩ := retiring.marked hworked
    refine ⟨r, k, ?_, ?_, hlanded⟩
    · rw [workLoop_eq, List.head?_append, hhead]
      rfl
    · rw [isRing_workLoop, if_neg (Nat.ne_of_lt (lt_size_of_isRing hr))]
      exact hr
  · have hne : r ≠ g.size := by
      rintro rfl
      exact hfresh k hlanded
    rw [workLoop_eq, List.mem_append, List.mem_singleton, or_iff_left hne] at hmem
    obtain ⟨hworked, hhead, hk⟩ := retiring.live hmem (hkind hr hne) hlanded
    rw [workLoop_eq, List.head?_append, hhead]
    exact ⟨hworked, rfl, hk⟩
  · rw [workLoop_eq, List.mem_append, List.mem_singleton, not_or] at hmem
    exact retiring.gone hmem.1 (hkind hr hmem.2)

/-- When a round begins, no live ring was worked into. -/
theorem beginRound (retiring : g.Retiring landed) (hnote : g.cursor.ringWorked = false)
    (length : Nat) : (g.beginRound length).Retiring landed where
  marked hworked := absurd (hnote.symm.trans hworked) Bool.false_ne_true
  live hmem hr hlanded := by
    have hworked := (retiring.live hmem hr hlanded).1
    exact absurd (hnote.symm.trans hworked) Bool.false_ne_true
  gone := retiring.gone

/-- **The end of a round retires the ring that was worked into.** -/
theorem endRound (retiring : g.Retiring landed) (hnodup : g.outline.Nodup) :
    g.endRound.Retiring landed := by
  have hkind : ∀ {r}, g.endRound.isRing r = true → g.isRing r = true := fun hr =>
    (isRing_endRound g _).symm.trans hr
  have hout : g.endRound.outline = g.retireRing.outline := rfl
  by_cases hworked : g.cursor.ringWorked = true
  · obtain ⟨ring, k, hhead, hring, hlanded⟩ := retiring.marked hworked
    have hretire : g.cursor.ringWorked = true ∧ g.outline.head?.any g.isRing = true := by
      simp [hworked, hhead, hring]
    obtain ⟨rest, hrest⟩ := List.head?_eq_some_iff.1 hhead
    rw [retireRing_eq, if_pos hretire, hrest, List.tail_cons] at hout
    rw [hrest] at hnodup
    refine ⟨fun h => absurd h Bool.false_ne_true, fun {r k'} hmem hr hlanded' => ?_,
      fun {r} hmem hr => ?_⟩
    · rw [hout] at hmem
      have hold : r ∈ g.outline := hrest ▸ List.mem_cons_of_mem _ hmem
      obtain ⟨-, hhead', -⟩ := retiring.live hold (hkind hr) hlanded'
      obtain rfl := Option.some.inj (hhead.symm.trans hhead')
      exact absurd hmem (List.nodup_cons.1 hnodup).1
    · by_cases hr' : r = ring
      · subst hr'
        have hold : r ∈ g.outline := List.mem_of_head? hhead
        refine ⟨k, hlanded, fun other hother => ?_⟩
        rw [(retiring.live hold hring hother).2.2, (retiring.live hold hring hlanded).2.2]
      · refine retiring.gone (fun hold => ?_) (hkind hr)
        rw [hrest] at hold
        exact hmem (hout ▸ (List.mem_cons.1 hold).resolve_left hr')
  · have hkeep : ¬(g.cursor.ringWorked = true ∧ g.outline.head?.any g.isRing = true) := fun h =>
      hworked h.1
    rw [retireRing_eq, if_neg hkeep] at hout
    refine ⟨fun h => absurd h Bool.false_ne_true, fun hmem hr hlanded => ?_, fun hmem hr => ?_⟩
    · exact absurd (retiring.live (hout ▸ hmem) (hkind hr) hlanded).1 hworked
    · exact retiring.gone (hout ▸ hmem) (hkind hr)

end Retiring

/-! ## Instructions and rounds -/

/-- What is known of a fabric in the course of a round that spares late loops. -/
structure Turning (g : Fabric) (begun late : Bool) : Prop extends g.WellFormed where
  retiring : g.Retiring g.WorkedInto
  /-- Before the first stitch nothing is live. -/
  outline_of_not_begun : begun = false → g.outline = []
  /-- A ring that can be shared is live, and at the front if it was not made behind other
  stitches. -/
  shared : ∀ {ring : Nat}, g.cursor.anchor? = some ring → g.cursor.anchorSpent = false →
    g.isRing ring = true → ring ∈ g.outline ∧ (late = false → g.outline.head? = some ring)

namespace Turning

variable {g h : Fabric} {begun late : Bool}

/-- Where no node is made and the outline and the cursor stay, all that is known stays so. -/
theorem of_eq (turning : g.Turning begun late) (wf : h.WellFormed) (hnodes : h.nodes = g.nodes)
    (hout : h.outline = g.outline) (hcursor : h.cursor = g.cursor) : h.Turning begun late := by
  have hkind : ∀ i, h.isRing i = g.isRing i := fun i => by rw [isRing, node?, hnodes]; rfl
  refine { wf with retiring := ?_, outline_of_not_begun := ?_, shared := ?_ }
  · refine (turning.retiring.of_eq hnodes hout (by rw [hcursor]) (by rw [hcursor])).congr ?_
    exact fun ring round _ => (workedInto_of_nodes hnodes ring round).symm
  · rw [hout]
    exact turning.outline_of_not_begun
  · simpa only [hcursor, hout, hkind] using @turning.shared

theorem workLoop (turning : g.Turning begun late) : g.workLoop.Turning true begun := by
  refine { turning.toWellFormed.workLoop with
    retiring := ?_, outline_of_not_begun := ?_, shared := ?_ }
  · have hfresh : ∀ k, ¬g.WorkedInto g.size k := fun k hworked =>
      Nat.lt_irrefl _ (turning.workedInto_lt hworked)
    exact (turning.retiring.workLoop hfresh).congr fun r k _ => (workedInto_workLoop g r k).symm
  · exact fun h => absurd h.symm Bool.false_ne_true
  · intro ring hanchor _ _
    obtain rfl : g.size = ring := Option.some.inj hanchor
    rw [workLoop_eq]
    refine ⟨List.mem_append_right _ (List.mem_singleton_self _), fun hbegun => ?_⟩
    rw [turning.outline_of_not_begun hbegun]
    rfl

/-- A stitch is woven into a stitch that counts as worked into. -/
theorem weave {stitch : Stitch} (hstitch : stitch ≠ .loop) {under : Nat} {ends : List Nat}
    {corners : List (Nat × Nat)} (wf : (g.weave stitch under ends corners).WellFormed)
    (hunder : under < g.size)
    (retiring : g.Retiring fun r k => g.WorkedInto r k ∨ r = under ∧ k = g.cursor.round)
    (hfront : g.isRing under = true → g.outline.head? = some under) :
    (g.weave stitch under ends corners).Turning true false := by
  refine { wf with retiring := ?_, outline_of_not_begun := ?_, shared := ?_ }
  · refine (retiring.weave hstitch under ends corners).congr fun r k _ => ?_
    exact (workedInto_weave hunder stitch ends corners r k).symm
  · exact fun h => absurd h.symm Bool.false_ne_true
  · intro ring hanchor _ hring
    rw [cursor_weave] at hanchor
    obtain rfl : under = ring := Option.some.inj hanchor
    rw [isRing_weave, if_neg (Nat.ne_of_lt hunder)] at hring
    have hhead := hfront hring
    rw [outline_weave, List.head?_append, hhead]
    exact ⟨List.mem_append_left _ (List.mem_of_head? hhead), fun _ => rfl⟩

/-- What is known once a stitch was taken. -/
theorem take (retiring : g.Retiring g.WorkedInto) {under : Nat}
    (htake : g.take? = some (under, h)) :
    (h.Retiring fun r k => h.WorkedInto r k ∨ r = under ∧ k = h.cursor.round) ∧
      (h.isRing under = true → h.outline.head? = some under) := by
  constructor
  · refine (retiring.take htake).congr fun r k _ => ?_
    rw [(edges_of_take? htake).2.2, workedInto_of_nodes (nodes_of_take? htake).1]
  · intro hring
    rw [isRing_of_take? htake] at hring
    obtain ⟨hhead, ⟨-, rfl⟩ | ⟨hstitch, -⟩⟩ := take?_eq_some htake
    · exact hhead
    · exact absurd (hstitch.symm.trans hring) Bool.false_ne_true

theorem weaveNext (turning : g.Turning begun late) {under : Nat}
    (htake : g.take? = some (under, h)) {stitch : Stitch} (hstitch : stitch ≠ .loop) :
    (h.weaveNext stitch under).Turning true false := by
  obtain ⟨wf, hunder⟩ := turning.toWellFormed.take htake
  obtain ⟨retiring, hfront⟩ := take turning.retiring htake
  exact weave hstitch (wf.weaveNext hstitch hunder) hunder retiring hfront

/-- A ring that is shared is at the front, or else was made late. -/
theorem weaveShared (turning : g.Turning begun false) {anchor : Nat}
    (hanchor : g.cursor.anchor? = some anchor) (hfresh : g.cursor.anchorSpent = false) :
    ((if g.isRing anchor then g.markRing else g).weaveShared anchor).Turning true false := by
  have hlt := turning.anchor_lt hanchor
  by_cases hring : g.isRing anchor = true
  · have hhead := (turning.shared hanchor hfresh hring).2 rfl
    rw [if_pos hring]
    refine weave (by decide) (turning.markRing.weaveShared hlt) hlt ?_ fun _ => hhead
    exact turning.retiring.mark hhead hring rfl rfl rfl rfl
  · have hstitch := Bool.not_eq_true _ ▸ hring
    rw [if_neg hring]
    refine weave (by decide) (turning.toWellFormed.weaveShared hlt) hlt ?_ fun h => absurd h hring
    exact turning.retiring.land hstitch

theorem weaveOver (turning : g.Turning begun late) {middle under : Nat} {once : Fabric}
    (hfirst : g.take? = some (middle, once)) (hsecond : once.take? = some (under, h)) :
    (h.weaveOver middle under).Turning true false := by
  obtain ⟨wfOnce, hmiddle⟩ := turning.toWellFormed.take hfirst
  obtain ⟨wf, hunder⟩ := wfOnce.take hsecond
  rw [← size_of_take? hsecond] at hmiddle
  obtain ⟨retiringOnce, hfrontOnce⟩ := take turning.retiring hfirst
  have retiring := retiringOnce.take hsecond
  have hfront : h.isRing under = true → h.outline.head? = some under := by
    intro hring
    rw [isRing_of_take? hsecond] at hring
    obtain ⟨hhead, ⟨-, rfl⟩ | ⟨hstitch, -⟩⟩ := take?_eq_some hsecond
    · exact hhead
    · exact absurd (hstitch.symm.trans hring) Bool.false_ne_true
  refine weave (by decide) (wf.weaveOver hmiddle hunder) hunder ?_ hfront
  refine retiring.congr fun r k hr => ?_
  rw [workedInto_of_nodes (nodes_of_take? hsecond).1, (edges_of_take? hsecond).2.2]
  constructor
  · rintro ((hold | ⟨rfl, hk⟩) | hnew)
    · exact Or.inl hold
    · -- A ring that is taken stays at the front, and so is taken again.
      rw [isRing_of_take? hsecond] at hr
      have hhead := (take?_eq_some hsecond).1
      exact Or.inr ⟨Option.some.inj ((hfrontOnce hr).symm.trans hhead), hk⟩
    · exact Or.inr hnew
  · rintro (hold | hnew)
    · exact Or.inl (Or.inl hold)
    · exact Or.inr hnew

/-- An instruction of a round that spares late loops. -/
theorem apply {i : Instruction} (turning : g.Turning begun late) (happly : g.apply i = .ok h)
    (hplain : i ≠ .finishOff ∧ i ≠ .magicRing) (hspares : late = true → i ≠ .increase) :
    h.Turning (begun || i.stitch.makesNode) (i.lateAfter begun late) := by
  have hmakes : ∀ {k : Fabric} {after : Bool}, k.Turning true after →
      k.Turning (begun || true) after := by
    simp
  have hkeeps : ∀ {k : Fabric}, k.Turning begun late → k.Turning (begun || false) late := by
    simp
  have wf := turning.toWellFormed.apply happly
  cases works_of_apply happly with
  | loop => exact hmakes turning.workLoop
  | chain => exact hkeeps turning
  | single take => exact hmakes (turning.weaveNext take (by simp))
  | moveOn _ take => exact hmakes (turning.weaveNext take (by simp))
  | share shared fresh =>
    obtain rfl : late = false := by
      rw [← Bool.not_eq_true]
      exact fun hlate => hspares hlate rfl
    exact hmakes (turning.weaveShared shared fresh)
  | decrease first second => exact hmakes (turning.weaveOver first second)
  | slip last first apart =>
    rw [addEdge, if_neg apart] at wf ⊢
    exact hkeeps (turning.of_eq wf rfl rfl rfl)
  | join hnode hother =>
    unfold addJoint at wf ⊢
    split at wf
    · rw [if_pos ‹_›]
      exact hkeeps turning
    · rw [if_neg ‹_›]
      exact hkeeps (turning.of_eq wf rfl rfl rfl)
  | magicRing => exact absurd rfl hplain.2
  | finishOff => exact absurd rfl hplain.1

theorem applyAll {instructions : List Instruction}
    (hplain : ∀ i ∈ instructions, i ≠ .finishOff ∧ i ≠ .magicRing) (turning : g.Turning begun late)
    (hspares : Round.sparesLoops begun late instructions = true)
    (hall : g.applyAll instructions = .ok h) :
    ∃ after, h.Turning (begun || instructions.any fun i => i.stitch.makesNode) after := by
  induction instructions generalizing g begun late with
  | nil =>
    obtain rfl := Except.ok.inj hall
    exact ⟨late, by simpa using turning⟩
  | cons i rest ih =>
    obtain ⟨middle, happly, hrest⟩ := exists_of_applyAll_cons hall
    simp only [Round.sparesLoops, Bool.and_eq_true, Bool.not_eq_true', Bool.and_eq_false_iff,
      beq_eq_false_iff_ne] at hspares
    obtain ⟨hfirst, hothers⟩ := hspares
    have hlate : late = true → i ≠ .increase := by
      rintro rfl
      exact hfirst.resolve_left Bool.noConfusion
    have next := turning.apply happly (hplain i (List.mem_cons_self ..)) hlate
    have hlast := ih (fun j hj => hplain j (List.mem_cons_of_mem _ hj)) next hothers hrest
    simpa [Bool.or_assoc] using hlast

end Turning

/-- What is known of a fabric between the rounds of a pattern that spares late loops. -/
structure Settled (g : Fabric) (begun : Bool) : Prop extends g.WellFormed where
  retiring : g.Retiring g.WorkedInto
  outline_of_not_begun : begun = false → g.outline = []
  ringWorked : g.cursor.ringWorked = false

theorem Settled.empty : Fabric.empty.Settled false := by
  refine { WellFormed.empty with
    retiring := ?_, outline_of_not_begun := fun _ => rfl, ringWorked := rfl }
  exact ⟨nofun, nofun, nofun⟩

/-- At the start of a round the anchor is spent, so no ring can be shared before a stitch was
worked. -/
theorem Settled.beginRound {g : Fabric} {begun : Bool} (settled : g.Settled begun) (length : Nat) :
    (g.beginRound length).Turning begun false where
  toWellFormed := settled.toWellFormed.beginRound length
  retiring := settled.retiring.beginRound settled.ringWorked length
  outline_of_not_begun := settled.outline_of_not_begun
  shared _ hfresh _ := absurd hfresh.symm Bool.false_ne_true

theorem Turning.endRound {g : Fabric} {begun late : Bool} (turning : g.Turning begun late) :
    g.endRound.Settled begun := by
  refine { turning.toWellFormed.endRound with
    retiring := ?_, outline_of_not_begun := fun hbegun => ?_, ringWorked := rfl }
  · have hnodup := turning.outline_ascending.imp Nat.ne_of_lt
    refine (turning.retiring.endRound hnodup).congr fun ring round _ => ?_
    exact (workedInto_of_nodes (nodes_endRound g).1 ring round).symm
  · have hout : g.endRound.outline = g.retireRing.outline := rfl
    rw [hout, retireRing_eq]
    have hnil := turning.outline_of_not_begun hbegun
    split
    · rw [hnil]
      rfl
    · exact hnil

theorem Settled.workRounds {rounds : List Round} {g h : Fabric} {begun : Bool} {index : Nat}
    (hplain : ∀ round ∈ rounds, ∀ i ∈ round, i ≠ .finishOff ∧ i ≠ .magicRing)
    (settled : g.Settled begun) (hspares : Round.allSpareLoops begun rounds = true)
    (hwork : g.workRounds index rounds = .ok h) : ∃ after, h.Settled after := by
  induction rounds generalizing g begun index with
  | nil =>
    obtain rfl := Except.ok.inj hwork
    exact ⟨begun, settled⟩
  | cons round rest ih =>
    obtain ⟨middle, hround, hrest⟩ := exists_of_workRounds_cons hwork
    obtain ⟨last, hall, rfl⟩ := exists_of_workRound hround
    obtain ⟨hfirst, hothers⟩ := Bool.and_eq_true_iff.1 hspares
    obtain ⟨late, turning⟩ := Turning.applyAll (hplain round (List.mem_cons_self ..))
      (settled.beginRound round.length) hfirst hall
    exact ih (fun r hr => hplain r (List.mem_cons_of_mem _ hr)) turning.endRound hothers hrest

/-! ## Whole patterns -/

/-- **A ring leaves with the round that works into it.**  In a pattern without finishing off and
magic rings, in which no increase shares a late loop, a ring is gone exactly if some stitch was
worked into it, and all stitches that were are of one round. -/
theorem ring_gone_iff_worked {p : Pattern} {g : Fabric} (works : ofPattern p = .ok g)
    (plain : ∀ round ∈ p.rounds, ∀ i ∈ round, i ≠ .finishOff ∧ i ≠ .magicRing)
    (spares : p.sparesLoops = true) :
    ∀ ring, g.isRing ring = true →
      (ring ∉ g.outline ↔ ∃ node ∈ g.nodes, node.id ≠ ring ∧ node.under = ring) ∧
      ∃ round, ∀ node ∈ g.nodes, node.id ≠ ring → node.under = ring → node.round = round := by
  obtain ⟨after, settled⟩ := Settled.empty.workRounds plain spares works
  intro ring hring
  by_cases hlive : ring ∈ g.outline
  · have hnone : ∀ node ∈ g.nodes, node.id ≠ ring → node.under ≠ ring := by
      intro node hnode hne hunder
      have hworked := (settled.retiring.live hlive hring ⟨node, hnode, hne, hunder, rfl⟩).1
      exact Bool.false_ne_true (settled.ringWorked.symm.trans hworked)
    refine ⟨⟨fun hgone => absurd hlive hgone, ?_⟩, 0, ?_⟩
    · rintro ⟨node, hnode, hne, hunder⟩
      exact absurd hunder (hnone node hnode hne)
    · exact fun node hnode hne hunder => absurd hunder (hnone node hnode hne)
  · obtain ⟨round, ⟨node, hnode, hne, hunder, -⟩, honly⟩ := settled.retiring.gone hlive hring
    refine ⟨⟨fun _ => ⟨node, hnode, hne, hunder⟩, fun _ => hlive⟩, round, ?_⟩
    exact fun other hother hne' hunder' => honly _ ⟨other, hother, hne', hunder', rfl⟩

/-- A disc, and a second ring made behind it that the next round comes to. -/
theorem ring_gone_iff_worked_discs : ∃ g, ofPattern ⟨[[.loop, .increase, .chain, .loop],
      [.single, .single, .increase, .single]]⟩ = .ok g ∧ g.isRing 0 = true ∧ g.isRing 2 = true ∧
    ((0 ∉ g.outline ↔ ∃ node ∈ g.nodes, node.id ≠ 0 ∧ node.under = 0) ∧
      ∃ round, ∀ node ∈ g.nodes, node.id ≠ 0 → node.under = 0 → node.round = round) ∧
    ((2 ∉ g.outline ↔ ∃ node ∈ g.nodes, node.id ≠ 2 ∧ node.under = 2) ∧
      ∃ round, ∀ node ∈ g.nodes, node.id ≠ 2 → node.under = 2 → node.round = round) := by
  have hworks : ofPattern ⟨[[.loop, .increase, .chain, .loop],
    [.single, .single, .increase, .single]]⟩ = .ok _ := rfl
  have hgone := ring_gone_iff_worked hworks (by decide) (by decide)
  exact ⟨_, hworks, by decide +kernel, by decide +kernel, hgone 0 (by decide +kernel),
    hgone 2 (by decide +kernel)⟩

/-- An increase that shares a late loop sends the ring at the front away in its place: nothing was
worked into ring 0, which is gone, and ring 1 was worked into and stays. -/
theorem late_ring_stays : ∃ g, ofPattern ⟨[[.loop, .loop, .increase]]⟩ = .ok g ∧
    g.isRing 0 = true ∧ 0 ∉ g.outline ∧ (∀ node ∈ g.nodes, node.id ≠ 0 → node.under ≠ 0) ∧
    g.isRing 1 = true ∧ 1 ∈ g.outline ∧ ∃ node ∈ g.nodes, node.id ≠ 1 ∧ node.under = 1 :=
  ⟨_, rfl, by decide +kernel, by decide +kernel, by decide +kernel, by decide +kernel,
    by decide +kernel, by decide +kernel⟩

end Fabric

end Crochet
