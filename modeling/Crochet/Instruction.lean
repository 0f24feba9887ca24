import Crochet.Fault

/-!
# Instructions

One step of a pattern: a stitch, and for sewing also the two nodes it sews together.
-/

namespace Crochet

/-- One step of a pattern. -/
inductive Instruction where
  | loop
  | chain
  | single
  | increase
  | decrease
  /-- Lets the increases that follow share the current stitch; adds nothing itself. -/
  | magicRing
  | slip
  /-- Sews node `node` to node `other`. -/
  | join (node other : Nat)
  | finishOff
  deriving DecidableEq, Repr, Inhabited

namespace Instruction

/-- The kind of stitch that an instruction works. -/
def stitch : Instruction → Stitch
  | loop => .loop
  | chain => .chain
  | single => .single
  | increase => .increase
  | decrease => .decrease
  | magicRing => .magicRing
  | slip => .slip
  | join _ _ => .join
  | finishOff => .finishOff

/-- How many stitches of the round below an instruction takes up, where that is a fixed number. -/
def needs? (i : Instruction) : Option Nat := i.stitch.needs?

/-- An instruction as it is shown. -/
def text : Instruction → String
  | join node other => "JOIN(" ++ toString node ++ ", " ++ toString other ++ ")"
  | i => i.stitch.mnemonic

/-- The instruction for a kind of stitch.  Only sewing looks at the two nodes, and needs both. -/
def ofStitch (s : Stitch) (node? other? : Option Nat) : Except Fault Instruction :=
  match s with
  | .loop => .ok loop
  | .chain => .ok chain
  | .single => .ok single
  | .increase => .ok increase
  | .decrease => .ok decrease
  | .magicRing => .ok magicRing
  | .slip => .ok slip
  | .finishOff => .ok finishOff
  | .join =>
    match node?, other? with
    | some node, some other => .ok (join node other)
    | none, _ => .error (.missingField .joinInstruction "node")
    | some _, none => .error (.missingField .joinInstruction "with")

/-- A counted instruction, written out.  A counted magic ring is that many increases. -/
def times (count : Nat) : Instruction → List Instruction
  | magicRing => List.replicate count increase
  | i => List.replicate count i

/-! ## Laws -/

/-- The instruction for a kind of stitch works that kind. -/
theorem stitch_ofStitch {s : Stitch} {node? other? : Option Nat} {i : Instruction}
    (h : ofStitch s node? other? = .ok i) : i.stitch = s := by
  cases s <;> cases node? <;> cases other? <;> simp_all [ofStitch] <;> subst h <;> rfl

/-- A counted instruction has as many steps as its count says. -/
@[simp] theorem length_times (count : Nat) (i : Instruction) : (i.times count).length = count := by
  cases i <;> simp [times]

end Instruction

end Crochet
