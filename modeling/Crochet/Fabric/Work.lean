import Crochet.Fabric.Basic

/-!
# Working a pattern

One instruction changes a fabric or fails without a trace (`Fabric.apply`).  A list of instructions,
and a pattern of rounds, stop at the first failure; what was worked before it is kept in the `Halt`.
-/

namespace Crochet

namespace Fabric

/-! ## Stitches -/

/-- A fault for a stitch that does not find enough live stitches. -/
def tooFew (g : Fabric) (stitch : Stitch) (required : Nat) : Fault :=
  .tooFewStitches stitch required g.outline.length

/-- The ring that starts a piece: live at once, and the anchor of what follows. -/
def workLoop (g : Fabric) : Fabric :=
  let id := g.size
  (g.pushNode .loop id id).finishStitch id id

/-- A stitch into the next live stitch.  It is held to the stitch before it, to the one below, and
to the anchor; in a ring these coincide and the edge is repeated. -/
def workNext (g : Fabric) (stitch : Stitch) : Except Fault Fabric :=
  match g.take? with
  | none => .error (g.tooFew stitch 1)
  | some (under, h) =>
    let anchor := h.cursor.anchor?.getD under
    let id := h.size
    let last := h.newest
    .ok <| h.pushNode stitch last under
      |>.addEdge id last 1 |>.addEdge id under 1 |>.addEdge id anchor 1
      |>.addFace id last anchor |>.addFace id anchor under
      |>.finishStitch id under

/-- A further stitch into the anchor, which takes up no live stitch. -/
def workAnchor (g : Fabric) (anchor : Nat) : Fabric :=
  let h :=
    if g.isRing anchor then { g with cursor := { g.cursor with ringWorked := true } } else g
  let id := h.size
  let last := h.newest
  h.pushNode .increase last anchor
    |>.addEdge id last 1 |>.addEdge id anchor 1
    |>.addFace id last anchor
    |>.finishStitch id anchor

/-- An increase: into the anchor, or into the next live stitch if the anchor is spent. -/
def workIncrease (g : Fabric) : Except Fault Fabric :=
  match g.cursor.anchor?, g.cursor.anchorSpent with
  | some anchor, false => .ok (g.workAnchor anchor)
  | _, _ => g.workNext .increase

/-- A stitch over the next two live stitches. -/
def workDecrease (g : Fabric) : Except Fault Fabric :=
  match g.take? with
  | none => .error (g.tooFew .decrease 2)
  | some (middle, h) =>
    match h.take? with
    | none => .error (g.tooFew .decrease 2)
    | some (under, h) =>
      let anchor := h.cursor.anchor?.getD middle
      let id := h.size
      let last := h.newest
      .ok <| h.pushNode .decrease last under
        |>.addEdge id last 1 |>.addEdge id anchor 1 |>.addEdge id middle 1 |>.addEdge id under 1
        |>.addFace id last anchor |>.addFace id anchor middle |>.addFace id middle under
        |>.finishStitch id under

/-- A slip stitch: a seam from the newest live stitch to the oldest. -/
def workSlip (g : Fabric) : Except Fault Fabric :=
  match g.outline.getLast?, g.outline.head? with
  | some newest, some oldest =>
    if newest = oldest then .error (g.tooFew .slip 2) else .ok (g.addEdge newest oldest 0)
  | _, _ => .error (g.tooFew .slip 2)

/-- The live stitches in pairs, from both ends inwards; a stitch in the middle stays alone. -/
def endPairs (live : List Nat) : List (Nat × Nat) :=
  (live.zip live.reverse).take (live.length / 2)

/-- Sews the live stitches together in pairs; none is live any more. -/
def workFinish (g : Fabric) : Fabric :=
  let sewn := (endPairs g.outline).foldl (fun h pair => h.addJoint pair.1 pair.2) g
  { sewn with
    outline := []
    consumed := g.consumed + g.outline.length
    cursor := { g.cursor with anchorSpent := true, ringWorked := false } }

/-- Sews two nodes together. -/
def workJoin (g : Fabric) (node other : Nat) : Except Fault Fabric :=
  match g.checkNode node with
  | .error fault => .error fault
  | .ok node =>
    match g.checkNode other with
    | .error fault => .error fault
    | .ok other => .ok (g.addJoint node other)

/-- One instruction. -/
def apply (g : Fabric) : Instruction → Except Fault Fabric
  | .loop => .ok g.workLoop
  | .chain => .ok g
  | .single => g.workNext .single
  | .increase => g.workIncrease
  | .decrease => g.workDecrease
  | .magicRing => .ok { g with cursor := { g.cursor with anchorSpent := false } }
  | .slip => g.workSlip
  | .join node other => g.workJoin node other
  | .finishOff => .ok g.workFinish

/-! ## Rounds -/

/-- Starts a round.  Stitches made outside a pattern before it are a round of their own. -/
def beginRound (g : Fabric) (length : Nat) : Fabric :=
  { g with
    cursor := { g.cursor with
      round := g.roundsUsed, anchorSpent := true, roundLength := length, made := 0 } }

/-- Takes a ring at the front of the outline away if the round has worked into a ring. -/
def retireRing (g : Fabric) : Fabric :=
  match g.cursor.ringWorked, g.outline with
  | true, front :: rest =>
    if g.isRing front then { g with outline := rest } else g
  | _, _ => g

/-- Ends a round. -/
def endRound (g : Fabric) : Fabric :=
  let h := g.retireRing
  { h with
    cursor := { h.cursor with
      ringWorked := false, round := h.cursor.round + 1, roundLength := 0, made := 0 } }

end Fabric

/-- Work that stopped at a fault. -/
structure Halt where
  /-- The fabric as far as it was worked. -/
  fabric : Fabric
  /-- The number of instructions worked before the fault. -/
  done : Nat
  fault : Fault

namespace Fabric

/-- Works instructions in order up to the first fault. -/
def applyAll (g : Fabric) : List Instruction → Except Halt Fabric
  | [] => .ok g
  | i :: rest =>
    match g.apply i with
    | .error fault => .error ⟨g, 0, fault⟩
    | .ok h =>
      match h.applyAll rest with
      | .error halt => .error { halt with done := halt.done + 1 }
      | .ok k => .ok k

/-- Works a round of a pattern; `index` is its number in the pattern. -/
def workRound (g : Fabric) (index : Nat) (round : Round) : Except Halt Fabric :=
  match (g.beginRound round.length).applyAll round with
  | .error halt => .error { halt with fault := .inRound index halt.done halt.fault }
  | .ok h => .ok h.endRound

/-- Works rounds in order, the first of them with the number `index`. -/
def workRounds (g : Fabric) (index : Nat) : List Round → Except Halt Fabric
  | [] => .ok g
  | round :: rest =>
    match g.workRound index round with
    | .error halt => .error halt
    | .ok h => h.workRounds (index + 1) rest

/-- Works a pattern onto a fabric. -/
def append (g : Fabric) (pattern : Pattern) : Except Halt Fabric := g.workRounds 0 pattern.rounds

/-- The fabric of a pattern. -/
def ofPattern (pattern : Pattern) : Except Halt Fabric := empty.append pattern

end Fabric

end Crochet
