import Crochet.Stitch
import Crochet.Decimal.Shortest

/-!
# Faults

What can go wrong with a pattern, a document, the settings of a relaxation or a file, as causes.
`Fault.message` holds all the wording.
-/

namespace Crochet

/-- The entries of a document or an anchor list that must have certain fields. -/
inductive Entry where
  | instruction
  | joinInstruction
  | anchor
  | patternCommand
  | joinCommand
  deriving DecidableEq, Repr

/-- How a message calls an entry. -/
def Entry.name : Entry → String
  | instruction => "operation"
  | joinInstruction => "JOIN operation"
  | anchor => "anchor"
  | patternCommand => "pattern command"
  | joinCommand => "join command"

/-- The settings of a relaxation that can have a value out of range. -/
inductive Setting where
  | spacing
  | damping
  | stiffness
  | timeStep
  deriving DecidableEq, Repr

/-- How settings files and messages call a setting. -/
def Setting.name : Setting → String
  | spacing => "point_distance"
  | damping => "damping"
  | stiffness => "stiffness"
  | timeStep => "time_step"

/-- The range that a setting must be in. -/
def Setting.range : Setting → String
  | spacing => "must be finite and non-negative"
  | damping => "must be between 0 and 1"
  | stiffness => "must be finite"
  | timeStep => "must be finite and positive"

/-- The causes of failure. -/
inductive Fault where
  /-- A stitch needs more live stitches than there are. -/
  | tooFewStitches (stitch : Stitch) (required available : Nat)
  /-- An instruction or an anchor names a node beyond the last one. -/
  | noSuchNode (node count : Nat)
  /-- No stitch has this abbreviation. -/
  | unknownStitch (text : String)
  /-- An instruction of a pattern failed. -/
  | inRound (round instruction : Nat) (cause : Fault)
  /-- A command of a document failed. -/
  | inCommand (index : Nat) (cause : Fault)
  /-- A field that an entry must have is absent. -/
  | missingField (entry : Entry) (field : String)
  /-- An anchor holds its node at no point of space. -/
  | anchorNotFinite (node : Nat)
  /-- A command names a part that was never made. -/
  | noSuchPart (id : Nat)
  /-- A setting is out of range. -/
  | outOfRange (setting : Setting) (value : Float)
  /-- A mesh is to be written to a file whose name has no known extension, or none at all. -/
  | unknownFormat (extension? : Option String)
  /-- A file cannot be read or written. -/
  | unusableFile (reason : String)
  /-- A text is not JSON, or not JSON of the form expected. -/
  | malformed
  deriving Repr

namespace Fault

/-- The text of a fault. -/
def message : Fault → String
  | tooFewStitches stitch required available =>
    "not enough points to apply " ++ stitch.mnemonic ++ ": needs " ++ toString required ++ ", " ++
      toString available ++ " available"
  | noSuchNode node count =>
    "node " ++ toString node ++ " does not exist (graph has " ++ toString count ++ " nodes)"
  | unknownStitch text => "operation " ++ text ++ " is not a valid operation"
  | inRound round instruction cause =>
    "round " ++ toString round ++ ", operation " ++ toString instruction ++ " failed: " ++
      cause.message
  | inCommand index cause => "command " ++ toString index ++ " failed: " ++ cause.message
  | missingField entry field => entry.name ++ " is missing required field \"" ++ field ++ "\""
  | anchorNotFinite node =>
    "invalid anchor for node " ++ toString node ++ ": position must be finite"
  | noSuchPart id => "pattern " ++ toString id ++ " does not exist"
  | outOfRange setting value =>
    "invalid parameter: " ++ setting.name ++ " = " ++ String.ofList (Decimal.shortest value) ++
      " (" ++ setting.range ++ ")"
  | unknownFormat extension? => "unsupported file format: " ++ extension?.getD "(none)"
  | unusableFile reason => "I/O error: " ++ reason
  | malformed => "JSON error: not a document of the expected form"

end Fault

end Crochet
