import Crochet.Text.Blank

/-!
# Stitches

The kinds of stitch that a pattern asks for, their abbreviations, and how many stitches of the round
below each of them is worked into.
-/

namespace Crochet

/-- The kinds of stitch. -/
inductive Stitch where
  /-- The ring that a piece starts from. -/
  | loop
  | chain
  /-- A single crochet: one stitch worked into the next one. -/
  | single
  /-- A further stitch into the stitch just worked into. -/
  | increase
  /-- One stitch worked over two. -/
  | decrease
  /-- Increases into a ring, gathered tight. -/
  | magicRing
  | slip
  /-- Sewing two stitches together. -/
  | join
  /-- Closing the stitches that are still live. -/
  | finishOff
  deriving DecidableEq, Repr, Inhabited

namespace Stitch

/-- Every kind, in the order in which abbreviations are looked up. -/
def all : List Stitch :=
  [loop, chain, single, increase, decrease, magicRing, slip, join, finishOff]

/-- The abbreviation that patterns use. -/
def mnemonic : Stitch → String
  | loop => "LP"
  | chain => "CH"
  | single => "SC"
  | increase => "INC"
  | decrease => "DEC"
  | magicRing => "MR"
  | slip => "SLST"
  | join => "JOIN"
  | finishOff => "FO"

/-- How many stitches of the round below the stitch takes up, where that is a fixed number. -/
def needs? : Stitch → Option Nat
  | loop => some 0
  | single => some 1
  | increase => some 0
  | decrease => some 2
  | _ => none

/-- Whether the stitch adds fabric. -/
def makesNode : Stitch → Bool
  | loop | single | increase | decrease => true
  | _ => false

/-- The stitch with an abbreviation, written in any ASCII case with blanks around it. -/
def read? (text : List Char) : Option Stitch :=
  all.find? fun s => s.mnemonic.toList == Text.upper (Text.trim text)

/-! ## Laws -/

/-- The list of kinds is complete. -/
theorem mem_all (s : Stitch) : s ∈ all := by cases s <;> decide

/-- No two kinds share an abbreviation. -/
theorem mnemonic_injective {s t : Stitch} (h : s.mnemonic = t.mnemonic) : s = t := by
  cases s <;> cases t <;> first | rfl | exact absurd h (by decide)

end Stitch

end Crochet
