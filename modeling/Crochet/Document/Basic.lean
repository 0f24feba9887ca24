import Crochet.Pattern

/-!
# Documents

A document is a list of commands that build the parts of a figure.  Its rounds are written with
counted items, which name a stitch by its abbreviation; `Pattern.ofItems` finds out what they mean.
-/

namespace Crochet

/-- A counted instruction as it is written. -/
structure Item where
  /-- The abbreviation of a stitch. -/
  name? : Option String := none
  /-- How often it is worked; once if nothing is written. -/
  count? : Option Nat := none
  /-- The first of two nodes to be sewn together. -/
  node? : Option Nat := none
  /-- The second of them. -/
  other? : Option Nat := none
  deriving DecidableEq, Repr, Inhabited

/-- One command of a document. -/
inductive Command where
  /-- Works rounds onto the part `id`, or onto nothing if there is no such part yet. -/
  | pattern (id? : Option Nat) (rounds : List (List Item))
  /-- Puts the part `second` beside the part `first` and calls the result `made`. -/
  | join (first? second? made? : Option Nat)
  deriving DecidableEq, Repr, Inhabited

/-- The commands of a figure, in order. -/
structure Document where
  commands : List Command := []
  deriving DecidableEq, Repr, Inhabited

/-! ## The meaning of items -/

namespace Item

/-- The single instruction that an item repeats. -/
def instruction (item : Item) : Except Fault Instruction :=
  match item.name? with
  | none => .error (.missingField .instruction "op")
  | some name =>
    match Stitch.read? name.toList with
    | none => .error (.unknownStitch name)
    | some stitch => Instruction.ofStitch stitch item.node? item.other?

/-- The instructions of an item, written out. -/
def instructions (item : Item) : Except Fault (List Instruction) :=
  match item.instruction with
  | .error fault => .error fault
  | .ok instruction => .ok (instruction.times (item.count?.getD 1))

end Item

/-- The round of some items. -/
def Round.ofItems : List Item → Except Fault Round
  | [] => .ok []
  | item :: rest =>
    match item.instructions with
    | .error fault => .error fault
    | .ok steps =>
      match Round.ofItems rest with
      | .error fault => .error fault
      | .ok round => .ok (steps ++ round)

/-- The rounds of some lists of items. -/
def Round.allOfItems : List (List Item) → Except Fault (List Round)
  | [] => .ok []
  | items :: rest =>
    match Round.ofItems items with
    | .error fault => .error fault
    | .ok round =>
      match Round.allOfItems rest with
      | .error fault => .error fault
      | .ok rounds => .ok (round :: rounds)

/-- The pattern of some lists of items; the first item without a meaning is the fault. -/
def Pattern.ofItems (rounds : List (List Item)) : Except Fault Pattern :=
  match Round.allOfItems rounds with
  | .error fault => .error fault
  | .ok rounds => .ok ⟨rounds⟩

end Crochet
