import Crochet.Instruction

/-!
# Patterns

A pattern is a list of rounds, a round a list of instructions.  Nothing about it is checked until it
is worked into a fabric; `Pattern.isConsistent` is advice beforehand, from counting alone.
-/

namespace Crochet

/-- A round of a pattern. -/
abbrev Round := List Instruction

/-- A pattern: its rounds in order. -/
structure Pattern where
  rounds : List Round
  deriving DecidableEq, Repr, Inhabited

/-! ## Rounds -/

namespace Round

/-- What an instruction takes up at the start of a round: the first stitch always lands in a stitch
of the round below, even if it otherwise needs none. -/
def firstNeeds (i : Instruction) : Nat :=
  match i.needs? with
  | some 0 => 1
  | some n => n
  | none => 0

/-- How many stitches of the round below a round takes up. -/
def demand : Round → Nat
  | [] => 0
  | i :: rest => firstNeeds i + (rest.map fun j => j.needs?.getD 0).foldr (· + ·) 0

/-- Whether no stitch of a round has a fixed need, as in a closing round. -/
def isFree (round : Round) : Bool := round.all fun i => i.needs?.isNone

/-- Whether a round takes up exactly as many stitches as the one before it has. -/
def follows (previous round : Round) : Bool := isFree round || demand round == previous.length

end Round

/-! ## Patterns -/

namespace Pattern

/-- The pattern with no rounds. -/
def empty : Pattern := ⟨[]⟩

/-- A pattern that starts with the usual round of one loop. -/
def startingWithLoop (rounds : List Round) : Pattern := ⟨[Instruction.loop] :: rounds⟩

/-- The number of instructions. -/
def size (p : Pattern) : Nat := p.rounds.flatten.length

/-- The number of instructions in a round, if there is such a round. -/
def stitchCount? (p : Pattern) (round : Nat) : Option Nat := p.rounds[round]?.map List.length

/-- Whether every round of a list takes up exactly the round before it. -/
def chained : List Round → Bool
  | previous :: round :: rest => Round.follows previous round && chained (round :: rest)
  | _ => true

/-- Whether every round but the first takes up exactly the stitches of the round before it. -/
def isConsistent (p : Pattern) : Bool := chained p.rounds

end Pattern

end Crochet
